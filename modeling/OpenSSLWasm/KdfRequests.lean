import OpenSSLWasm.Digest
import OpenSSLWasm.Kdf

/-!
# Requests for keys

Each function of `src/kdf.c` fetches a KDF by its name and hands it an array of parameters. The KDF
looks its parameters up by their keys, and is to find there what the caller gave.

## Main definitions

* `Param`: the entries of the arrays, with what their data points to;
* `pbkdf2`, `hkdf` and the other functions;
* `Call` and `Call.request`: any of them, and what it asks `derive` for;
* `Request.decode`: the call that a request comes from;
* `Hkdf`: what is documented of the modes of HKDF.

## Main results

* `decode_request`: the arrays fit, and the call can be told from what is looked up in them;
* `hkdf_eq`: HKDF is to extract and then to expand, also with a label of TLS 1.3.
-/

namespace OpenSSLWasm.Kdf

open Digest

/-! ## Parameters -/

/-- The `OSSL_KDF_PARAM` keys. -/
inductive ParamKey
  | password
  | salt
  | iter
  | digest
  | key
  | info
  | mode
  | mac
  | secret
  | scryptN
  | scryptR
  | scryptP
  | scryptMaxmem
  | argon2Ad
  | argon2Lanes
  | argon2Memcost
  deriving DecidableEq

/-- What an entry points to, by the function that constructs it. -/
inductive ParamData
  | octetString (b : List Byte)
  | utf8String (s : List Byte)
  | int (n : BitVec 32)
  | uint (n : BitVec 32)
  | uint32 (n : BitVec 32)
  | uint64 (n : BitVec 64)

/-- An entry of an array, without the one that ends it. -/
structure Param where
  key : ParamKey
  data : ParamData

/-- `OSSL_PARAM_locate_const`. -/
def locate (ps : List Param) (k : ParamKey) : Option ParamData :=
  (ps.find? (·.key = k)).map (·.data)

/-- An entry that is there for a value that is there. -/
def optional (k : ParamKey) (b : Option (List Byte)) : List Param :=
  b.toList.map fun b => ⟨k, .octetString b⟩

/-! ## Functions -/

/-- The EVP functions. -/
structure RequestEvp where
  /-- `EVP_KDF_fetch`. -/
  fetch : List Byte → Bool
  /-- `EVP_KDF_CTX_new`. -/
  ctxNew : Bool
  /-- `EVP_KDF_derive`, for so many bytes. -/
  derive : List Byte → List Param → ℕ → Option (List Byte)
  /-- `EVP_MD_get_size`. -/
  mdSize : DigestAlgorithm → ℤ
  /-- `ERR_peek_last_error`. -/
  lastError : BitVec 64

/-- `derive`. -/
def deriveParams (E : RequestEvp) (name : List Byte) (params : List Param) (outLen : BitVec 32) :
    Except KdfError (List Byte) :=
  if E.fetch name = false then .error .unsupportedAlgorithm
  else if E.ctxNew = false then .error (.internal 0)
  else orError (E.derive name params outLen.toNat) (.internal E.lastError)

/-- `wit_digest_md`. -/
def witDigestMd (b : Build) (a : DigestAlgorithm) : Option DigestAlgorithm :=
  match a with
  | .blake2s256 | .blake2b512 => if b.blake2 then some a else none
  | .ripemd160 => if b.rmd160 then some a else none
  | .sm3 => if b.sm3 then some a else none
  | _ => some a

structure Pbkdf2Params where
  hash : DigestAlgorithm
  iterations : BitVec 32
  salt : List Byte

structure HkdfFullParams where
  hash : DigestAlgorithm
  salt : Option (List Byte)
  info : List Byte

structure HkdfExtractParams where
  hash : DigestAlgorithm
  salt : Option (List Byte)

structure HkdfExpandParams where
  hash : DigestAlgorithm
  info : List Byte

structure ScryptParams where
  salt : List Byte
  n : BitVec 64
  r : BitVec 32
  p : BitVec 32
  maxMem : BitVec 64

inductive Argon2Variant
  | d
  | i
  | id
  deriving DecidableEq

structure Argon2Params where
  kind : Argon2Variant
  salt : List Byte
  secret : Option (List Byte)
  ad : Option (List Byte)
  tCost : BitVec 32
  mCost : BitVec 32
  lanes : BitVec 32

structure KbkdfParams where
  hash : DigestAlgorithm
  label : List Byte
  context : List Byte

structure SsKdfParams where
  hash : DigestAlgorithm
  info : List Byte
  salt : Option (List Byte)

structure X963KdfParams where
  hash : DigestAlgorithm
  info : List Byte

/-- `EVP_KDF_HKDF_MODE_EXTRACT_ONLY`. -/
def extractOnly : ℕ := 1

section

variable (E : RequestEvp)

def pbkdf2 (password : List Byte) (params : Pbkdf2Params) (outLen : BitVec 32) :
    Except KdfError (List Byte) :=
  match witDigestName params.hash with
  | none => .error .unsupportedAlgorithm
  | some dname =>
    deriveParams E (ascii "PBKDF2")
      [⟨.password, .octetString password⟩, ⟨.salt, .octetString params.salt⟩,
        ⟨.iter, .uint params.iterations⟩, ⟨.digest, .utf8String dname⟩] outLen

def hkdf (ikm : List Byte) (params : HkdfFullParams) (outLen : BitVec 32) :
    Except KdfError (List Byte) :=
  match witDigestName params.hash with
  | none => .error .unsupportedAlgorithm
  | some dname =>
    deriveParams E (ascii "HKDF")
      ([⟨.digest, .utf8String dname⟩, ⟨.key, .octetString ikm⟩] ++ optional .salt params.salt ++
        [⟨.info, .octetString params.info⟩]) outLen

def hkdfExtract (b : Build) (ikm : List Byte) (params : HkdfExtractParams) :
    Except KdfError (List Byte) :=
  match witDigestName params.hash with
  | none => .error .unsupportedAlgorithm
  | some dname =>
    let hlen := (witDigestMd b params.hash).elim 0 fun md => BitVec.ofInt 32 (E.mdSize md)
    deriveParams E (ascii "HKDF")
      ([⟨.mode, .int (BitVec.ofNat 32 extractOnly)⟩, ⟨.digest, .utf8String dname⟩,
        ⟨.key, .octetString ikm⟩] ++ optional .salt params.salt) hlen

def hkdfExpand (prk : List Byte) (params : HkdfExpandParams) (outLen : BitVec 32) :
    Except KdfError (List Byte) :=
  match witDigestName params.hash with
  | none => .error .unsupportedAlgorithm
  | some dname =>
    deriveParams E (ascii "HKDF")
      [⟨.mode, .int (BitVec.ofNat 32 expandOnly)⟩, ⟨.digest, .utf8String dname⟩,
        ⟨.key, .octetString prk⟩, ⟨.info, .octetString params.info⟩] outLen

def scrypt (password : List Byte) (params : ScryptParams) (outLen : BitVec 32) :
    Except KdfError (List Byte) :=
  deriveParams E (ascii "SCRYPT")
    ([⟨.password, .octetString password⟩, ⟨.salt, .octetString params.salt⟩,
      ⟨.scryptN, .uint64 params.n⟩, ⟨.scryptR, .uint32 params.r⟩, ⟨.scryptP, .uint32 params.p⟩] ++
      -- 0 is for the default
      if params.maxMem ≠ 0 then [⟨.scryptMaxmem, .uint64 params.maxMem⟩] else []) outLen

def argon2Name (kind : Argon2Variant) : List Byte :=
  match kind with
  | .d => ascii "ARGON2D"
  | .i => ascii "ARGON2I"
  | .id => ascii "ARGON2ID"

def argon2 (password : List Byte) (params : Argon2Params) (outLen : BitVec 32) :
    Except KdfError (List Byte) :=
  deriveParams E (argon2Name params.kind)
    ([⟨.password, .octetString password⟩, ⟨.salt, .octetString params.salt⟩] ++
      optional .secret params.secret ++ optional .argon2Ad params.ad ++
      [⟨.argon2Lanes, .uint32 params.lanes⟩, ⟨.argon2Memcost, .uint32 params.mCost⟩,
        ⟨.iter, .uint32 params.tCost⟩]) outLen

def kbkdf (key : List Byte) (params : KbkdfParams) (outLen : BitVec 32) :
    Except KdfError (List Byte) :=
  match witDigestName params.hash with
  | none => .error .unsupportedAlgorithm
  | some dname =>
    deriveParams E (ascii "KBKDF")
      [⟨.mac, .utf8String (ascii "HMAC")⟩, ⟨.digest, .utf8String dname⟩,
        ⟨.mode, .utf8String (ascii "COUNTER")⟩, ⟨.key, .octetString key⟩,
        ⟨.salt, .octetString params.label⟩, ⟨.info, .octetString params.context⟩] outLen

def ssKdf (sharedSecret : List Byte) (params : SsKdfParams) (outLen : BitVec 32) :
    Except KdfError (List Byte) :=
  match witDigestName params.hash with
  | none => .error .unsupportedAlgorithm
  | some dname =>
    deriveParams E (ascii "SSKDF")
      ([⟨.digest, .utf8String dname⟩, ⟨.key, .octetString sharedSecret⟩,
        ⟨.info, .octetString params.info⟩] ++ optional .salt params.salt) outLen

def x963Kdf (sharedSecret : List Byte) (params : X963KdfParams) (outLen : BitVec 32) :
    Except KdfError (List Byte) :=
  match witDigestName params.hash with
  | none => .error .unsupportedAlgorithm
  | some dname =>
    deriveParams E (ascii "X963KDF")
      [⟨.digest, .utf8String dname⟩, ⟨.key, .octetString sharedSecret⟩,
        ⟨.info, .octetString params.info⟩] outLen

end

/-! ## Requests -/

/-- What `derive` is called with. -/
structure Request where
  name : List Byte
  params : List Param
  outLen : BitVec 32

def Request.send (E : RequestEvp) (r : Request) : Except KdfError (List Byte) :=
  deriveParams E r.name r.params r.outLen

/-- A call of one of the functions. -/
inductive Call
  | pbkdf2 (password : List Byte) (params : Pbkdf2Params) (outLen : BitVec 32)
  | hkdf (ikm : List Byte) (params : HkdfFullParams) (outLen : BitVec 32)
  | hkdfExtract (ikm : List Byte) (params : HkdfExtractParams)
  | hkdfExpand (prk : List Byte) (params : HkdfExpandParams) (outLen : BitVec 32)
  | scrypt (password : List Byte) (params : ScryptParams) (outLen : BitVec 32)
  | argon2 (password : List Byte) (params : Argon2Params) (outLen : BitVec 32)
  | kbkdf (key : List Byte) (params : KbkdfParams) (outLen : BitVec 32)
  | ssKdf (sharedSecret : List Byte) (params : SsKdfParams) (outLen : BitVec 32)
  | x963Kdf (sharedSecret : List Byte) (params : X963KdfParams) (outLen : BitVec 32)

namespace Call

def perform (E : RequestEvp) (b : Build) : Call → Except KdfError (List Byte)
  | pbkdf2 password params outLen => Kdf.pbkdf2 E password params outLen
  | hkdf ikm params outLen => Kdf.hkdf E ikm params outLen
  | hkdfExtract ikm params => Kdf.hkdfExtract E b ikm params
  | hkdfExpand prk params outLen => Kdf.hkdfExpand E prk params outLen
  | scrypt password params outLen => Kdf.scrypt E password params outLen
  | argon2 password params outLen => Kdf.argon2 E password params outLen
  | kbkdf key params outLen => Kdf.kbkdf E key params outLen
  | ssKdf sharedSecret params outLen => Kdf.ssKdf E sharedSecret params outLen
  | x963Kdf sharedSecret params outLen => Kdf.x963Kdf E sharedSecret params outLen

/-- The size of the array, which holds the end as well. -/
def cap : Call → ℕ
  | pbkdf2 .. | hkdfExpand .. => 5
  | hkdf .. | hkdfExtract .. | ssKdf .. => 6
  | scrypt .. => 8
  | argon2 .. => 10
  | kbkdf .. => 7
  | x963Kdf .. => 4

end Call

/-! ## What a KDF finds -/

section

variable (ps : List Param)

def octets (k : ParamKey) : Option (List Byte) :=
  match locate ps k with
  | some (.octetString b) => some b
  | _ => none

def number (k : ParamKey) : Option (BitVec 32) :=
  match locate ps k with
  | some (.int n) | some (.uint n) | some (.uint32 n) => some n
  | _ => none

def number64 (k : ParamKey) : Option (BitVec 64) :=
  match locate ps k with
  | some (.uint64 n) => some n
  | _ => none

/-- The digest with a name. -/
def digestNamed (s : List Byte) : Option DigestAlgorithm :=
  [.md5, .sha1, .sha224, .sha256, .sha384, .sha512, .sha512t224, .sha512t256, .sha3t224, .sha3t256,
    .sha3t384, .sha3t512, .shake128, .shake256, .blake2s256, .blake2b512, .ripemd160, .sm3].find?
    fun a => witDigestName a = some s

def hashOf : Option DigestAlgorithm :=
  match locate ps .digest with
  | some (.utf8String s) => digestNamed s
  | _ => none

end

/-- The KDFs, by what their names are for. -/
inductive KdfKind
  | pbkdf2
  | hkdf
  | scrypt
  | argon2 (kind : Argon2Variant)
  | kbkdf
  | ssKdf
  | x963Kdf
  deriving DecidableEq

def kdfNames : List (List Byte × KdfKind) :=
  [(ascii "PBKDF2", .pbkdf2), (ascii "HKDF", .hkdf), (ascii "SCRYPT", .scrypt),
    (ascii "ARGON2D", .argon2 .d), (ascii "ARGON2I", .argon2 .i), (ascii "ARGON2ID", .argon2 .id),
    (ascii "KBKDF", .kbkdf), (ascii "SSKDF", .ssKdf), (ascii "X963KDF", .x963Kdf)]

/-- The KDF with a name. -/
def kdfNamed (s : List Byte) : Option KdfKind := (kdfNames.find? (·.1 = s)).map (·.2)

/-- The call that a request comes from, by the name of its KDF and by what is looked up. -/
def Request.decode (r : Request) : Option Call :=
  let ps := r.params
  match kdfNamed r.name with
  | none => none
  | some .pbkdf2 => do
    let params := ⟨← hashOf ps, ← number ps .iter, ← octets ps .salt⟩
    some (.pbkdf2 (← octets ps .password) params r.outLen)
  | some .hkdf =>
    match number ps .mode with
    | none => do
      let params := ⟨← hashOf ps, octets ps .salt, ← octets ps .info⟩
      some (.hkdf (← octets ps .key) params r.outLen)
    | some mode =>
      if mode = BitVec.ofNat 32 extractOnly then do
        some (.hkdfExtract (← octets ps .key) ⟨← hashOf ps, octets ps .salt⟩)
      else do
        some (.hkdfExpand (← octets ps .key) ⟨← hashOf ps, ← octets ps .info⟩ r.outLen)
  | some .scrypt => do
    let params := ⟨← octets ps .salt, ← number64 ps .scryptN, ← number ps .scryptR,
      ← number ps .scryptP, (number64 ps .scryptMaxmem).getD 0⟩
    some (.scrypt (← octets ps .password) params r.outLen)
  | some (.argon2 kind) => do
    let params := ⟨kind, ← octets ps .salt, octets ps .secret, octets ps .argon2Ad,
      ← number ps .iter, ← number ps .argon2Memcost, ← number ps .argon2Lanes⟩
    some (.argon2 (← octets ps .password) params r.outLen)
  | some .kbkdf => do
    let params := ⟨← hashOf ps, ← octets ps .salt, ← octets ps .info⟩
    some (.kbkdf (← octets ps .key) params r.outLen)
  | some .ssKdf => do
    some (.ssKdf (← octets ps .key) ⟨← hashOf ps, ← octets ps .info, octets ps .salt⟩ r.outLen)
  | some .x963Kdf => do
    some (.x963Kdf (← octets ps .key) ⟨← hashOf ps, ← octets ps .info⟩ r.outLen)

theorem kdfNamed_of_mem : ∀ x ∈ kdfNames, kdfNamed x.1 = some x.2 := by decide +kernel

theorem kdfNamed_argon2Name (kind : Argon2Variant) :
    kdfNamed (argon2Name kind) = some (.argon2 kind) := by
  cases kind with
  | d => exact kdfNamed_of_mem (ascii "ARGON2D", .argon2 .d) (by simp [kdfNames])
  | i => exact kdfNamed_of_mem (ascii "ARGON2I", .argon2 .i) (by simp [kdfNames])
  | id => exact kdfNamed_of_mem (ascii "ARGON2ID", .argon2 .id) (by simp [kdfNames])

/-- Every digest has a name, and can be told from it. -/
theorem exists_digestNamed (a : DigestAlgorithm) :
    ∃ dname, witDigestName a = some dname ∧ digestNamed dname = some a := by
  cases a <;> exact ⟨_, rfl, by decide +kernel⟩

theorem hashOf_eq {ps : List Param} {dname : List Byte} {a : DigestAlgorithm}
    (hps : locate ps .digest = some (.utf8String dname)) (h : digestNamed dname = some a) :
    hashOf ps = some a := by
  rw [hashOf, hps]
  exact h

/-- Whatever a function is called with, its array has room for the parameters and for the end, has no
key twice, and a KDF finds in it just what the caller gave. -/
theorem decode_request (b : Build) (size : DigestAlgorithm → ℤ) (c : Call) :
    ∃ r : Request, (∀ E : RequestEvp, E.mdSize = size → c.perform E b = r.send E) ∧
      r.params.length < c.cap ∧ (r.params.map (·.key)).Nodup ∧ r.decode = some c := by
  cases c with
  | pbkdf2 password params outLen =>
    obtain ⟨dname, hname, hdigest⟩ := exists_digestNamed params.hash
    have hkind := kdfNamed_of_mem (ascii "PBKDF2", .pbkdf2) (by simp [kdfNames])
    refine ⟨⟨ascii "PBKDF2", _, outLen⟩,
      fun E _ => by simp only [Call.perform, pbkdf2, hname]; rfl, ?_, ?_, ?_⟩
    · exact Nat.lt_succ_self 4
    · exact (by decide : [ParamKey.password, .salt, .iter, .digest].Nodup)
    · simp only [Request.decode, hkind]
      rw [hashOf_eq ?_ hdigest] <;> rfl
  | hkdf ikm params outLen =>
    obtain ⟨hash, salt, info⟩ := params
    obtain ⟨dname, hname, hdigest⟩ := exists_digestNamed hash
    have hkind := kdfNamed_of_mem (ascii "HKDF", .hkdf) (by simp [kdfNames])
    refine ⟨⟨ascii "HKDF", _, outLen⟩,
      fun E _ => by simp only [Call.perform, Kdf.hkdf, hname]; rfl, ?_, ?_, ?_⟩
    · rcases salt with _ | salt
      exacts [(by decide : 3 < 6), (by decide : 4 < 6)]
    · rcases salt with _ | salt
      exacts [(by decide : [ParamKey.digest, .key, .info].Nodup),
        (by decide : [ParamKey.digest, .key, .salt, .info].Nodup)]
    · simp only [Request.decode, hkind]
      rcases salt with _ | salt <;> rw [hashOf_eq ?_ hdigest] <;> rfl
  | hkdfExtract ikm params =>
    obtain ⟨hash, salt⟩ := params
    obtain ⟨dname, hname, hdigest⟩ := exists_digestNamed hash
    have hkind := kdfNamed_of_mem (ascii "HKDF", .hkdf) (by simp [kdfNames])
    refine ⟨⟨ascii "HKDF", _, (witDigestMd b hash).elim 0 fun md => BitVec.ofInt 32 (size md)⟩,
      fun E hE => by simp only [Call.perform, Kdf.hkdfExtract, hname, hE]; rfl, ?_, ?_, ?_⟩
    · rcases salt with _ | salt
      exacts [(by decide : 3 < 6), (by decide : 4 < 6)]
    · rcases salt with _ | salt
      exacts [(by decide : [ParamKey.mode, .digest, .key].Nodup),
        (by decide : [ParamKey.mode, .digest, .key, .salt].Nodup)]
    · simp only [Request.decode, hkind]
      rcases salt with _ | salt <;> rw [hashOf_eq ?_ hdigest] <;> rfl
  | hkdfExpand prk params outLen =>
    obtain ⟨dname, hname, hdigest⟩ := exists_digestNamed params.hash
    have hkind := kdfNamed_of_mem (ascii "HKDF", .hkdf) (by simp [kdfNames])
    refine ⟨⟨ascii "HKDF", _, outLen⟩,
      fun E _ => by simp only [Call.perform, Kdf.hkdfExpand, hname]; rfl, ?_, ?_, ?_⟩
    · exact Nat.lt_succ_self 4
    · exact (by decide : [ParamKey.mode, .digest, .key, .info].Nodup)
    · simp only [Request.decode, hkind]
      rw [hashOf_eq ?_ hdigest] <;> rfl
  | scrypt password params outLen =>
    obtain ⟨salt, n, r, p, maxMem⟩ := params
    have hkind := kdfNamed_of_mem (ascii "SCRYPT", .scrypt) (by simp [kdfNames])
    refine ⟨⟨ascii "SCRYPT", _, outLen⟩, fun E _ => rfl, ?_, ?_, ?_⟩
    · split_ifs
      exacts [(by decide : 6 < 8), (by decide : 5 < 8)]
    · split_ifs
      exacts [(by decide : [ParamKey.password, .salt, .scryptN, .scryptR, .scryptP,
          .scryptMaxmem].Nodup),
        (by decide : [ParamKey.password, .salt, .scryptN, .scryptR, .scryptP].Nodup)]
    · -- the entry that is left out is read as 0
      simp only [Request.decode, hkind]
      split_ifs with hmax
      · rfl
      · rw [not_not] at hmax
        subst hmax
        rfl
  | argon2 password params outLen =>
    obtain ⟨kind, salt, secret, ad, tCost, mCost, lanes⟩ := params
    have hkind := kdfNamed_argon2Name kind
    refine ⟨⟨argon2Name kind, _, outLen⟩, fun E _ => rfl, ?_, ?_, ?_⟩
    · rcases secret with _ | secret <;> rcases ad with _ | ad
      exacts [(by decide : 5 < 10), (by decide : 6 < 10), (by decide : 6 < 10),
        (by decide : 7 < 10)]
    · rcases secret with _ | secret <;> rcases ad with _ | ad
      exacts [(by decide : [ParamKey.password, .salt, .argon2Lanes, .argon2Memcost, .iter].Nodup),
        (by decide : [ParamKey.password, .salt, .argon2Ad, .argon2Lanes, .argon2Memcost,
          .iter].Nodup),
        (by decide : [ParamKey.password, .salt, .secret, .argon2Lanes, .argon2Memcost,
          .iter].Nodup),
        (by decide : [ParamKey.password, .salt, .secret, .argon2Ad, .argon2Lanes, .argon2Memcost,
          .iter].Nodup)]
    · simp only [Request.decode, hkind]
      rcases secret with _ | secret <;> rcases ad with _ | ad <;> rfl
  | kbkdf key params outLen =>
    obtain ⟨dname, hname, hdigest⟩ := exists_digestNamed params.hash
    have hkind := kdfNamed_of_mem (ascii "KBKDF", .kbkdf) (by simp [kdfNames])
    refine ⟨⟨ascii "KBKDF", _, outLen⟩,
      fun E _ => by simp only [Call.perform, Kdf.kbkdf, hname]; rfl, ?_, ?_, ?_⟩
    · exact Nat.lt_succ_self 6
    · exact (by decide : [ParamKey.mac, .digest, .mode, .key, .salt, .info].Nodup)
    · simp only [Request.decode, hkind]
      rw [hashOf_eq ?_ hdigest] <;> rfl
  | ssKdf sharedSecret params outLen =>
    obtain ⟨hash, info, salt⟩ := params
    obtain ⟨dname, hname, hdigest⟩ := exists_digestNamed hash
    have hkind := kdfNamed_of_mem (ascii "SSKDF", .ssKdf) (by simp [kdfNames])
    refine ⟨⟨ascii "SSKDF", _, outLen⟩,
      fun E _ => by simp only [Call.perform, Kdf.ssKdf, hname]; rfl, ?_, ?_, ?_⟩
    · rcases salt with _ | salt
      exacts [(by decide : 3 < 6), (by decide : 4 < 6)]
    · rcases salt with _ | salt
      exacts [(by decide : [ParamKey.digest, .key, .info].Nodup),
        (by decide : [ParamKey.digest, .key, .info, .salt].Nodup)]
    · simp only [Request.decode, hkind]
      rcases salt with _ | salt <;> rw [hashOf_eq ?_ hdigest] <;> rfl
  | x963Kdf sharedSecret params outLen =>
    obtain ⟨dname, hname, hdigest⟩ := exists_digestNamed params.hash
    have hkind := kdfNamed_of_mem (ascii "X963KDF", .x963Kdf) (by simp [kdfNames])
    refine ⟨⟨ascii "X963KDF", _, outLen⟩,
      fun E _ => by simp only [Call.perform, Kdf.x963Kdf, hname]; rfl, ?_, ?_, ?_⟩
    · exact Nat.lt_succ_self 3
    · exact (by decide : [ParamKey.digest, .key, .info].Nodup)
    · simp only [Request.decode, hkind]
      rw [hashOf_eq ?_ hdigest] <;> rfl

/-! ## HKDF in two steps -/

/-- The functions of RFC 5869, for a digest by its name: of the salt and the key; and of a
pseudorandom key, the info and a length. They fail for what is no digest for HMAC, and for lengths
that are out of range. -/
structure HkdfFunctions where
  extract : List Byte → List Byte → List Byte → Option (List Byte)
  expand : List Byte → List Byte → List Byte → ℕ → Option (List Byte)

/-- What is documented of `EVP_KDF_derive` for HKDF: what it computes in each mode, from what it
finds in the array. A salt that is not there is empty, and an extracted key has the length of the
digest. -/
structure Hkdf (E : RequestEvp) (F : HkdfFunctions) : Prop where
  extractAndExpand : ∀ ps d key n, number ps .mode = none →
    locate ps .digest = some (.utf8String d) → octets ps .key = some key →
    E.derive (ascii "HKDF") ps n = (F.extract d ((octets ps .salt).getD []) key).bind fun prk =>
      F.expand d prk ((octets ps .info).getD []) n
  extractOnly : ∀ ps d key n, number ps .mode = some (BitVec.ofNat 32 extractOnly) →
    locate ps .digest = some (.utf8String d) → octets ps .key = some key →
    E.derive (ascii "HKDF") ps n =
      (F.extract d ((octets ps .salt).getD []) key).filter (·.length = n)
  expandOnly : ∀ ps d key n, number ps .mode = some (BitVec.ofNat 32 expandOnly) →
    locate ps .digest = some (.utf8String d) → octets ps .key = some key →
    E.derive (ascii "HKDF") ps n = F.expand d key ((octets ps .info).getD []) n
  size : ∀ a d salt key, witDigestName a = some d → ∀ prk ∈ F.extract d salt key,
    E.mdSize a = prk.length ∧ prk.length ≤ 64

/-- The EVP functions, as a label is derived with them. -/
def RequestEvp.toEvp (E : RequestEvp) : Evp where
  fetch := E.fetch
  ctxNew := E.ctxNew
  derive name params n :=
    E.derive name [⟨.mode, .int (BitVec.ofNat 32 params.mode)⟩, ⟨.digest, .utf8String params.digest⟩,
      ⟨.key, .octetString params.key⟩, ⟨.info, .octetString params.info⟩] n
  lastError := E.lastError

theorem derive_toEvp (E : RequestEvp) (name : List Byte) (params : HkdfParams)
    (outLen : BitVec 32) :
    derive E.toEvp name params outLen = deriveParams E name
      [⟨.mode, .int (BitVec.ofNat 32 params.mode)⟩, ⟨.digest, .utf8String params.digest⟩,
        ⟨.key, .octetString params.key⟩, ⟨.info, .octetString params.info⟩] outLen := rfl

section

variable {E : RequestEvp} {F : HkdfFunctions} {b : Build}

/-- A label of TLS 1.3 is expanded with its layout. -/
theorem tls13ExpandLabel_eq_hkdfExpand {params : Tls13ExpandLabelParams} {outLen : BitVec 32}
    {l : HkdfLabel} (hl : params.hkdfLabel? outLen = some l) :
    tls13ExpandLabel E.toEvp params outLen =
      some (hkdfExpand E params.secret.bytes ⟨params.hash, l.encode⟩ outLen) := by
  obtain ⟨dname, hname, heq⟩ := tls13ExpandLabel_eq params outLen E.toEvp
  rw [heq, hl]
  simp only [Option.elim_some, hkdfExpand, hname, derive_toEvp]

/-- What the call with both modes computes. -/
theorem derive_both (hE : Hkdf E F) (dname ikm info : List Byte) (salt : Option (List Byte))
    (n : ℕ) :
    E.derive (ascii "HKDF") ([⟨.digest, .utf8String dname⟩, ⟨.key, .octetString ikm⟩] ++
      optional .salt salt ++ [⟨.info, .octetString info⟩]) n =
      (F.extract dname (salt.getD []) ikm).bind fun prk => F.expand dname prk info n := by
  rcases salt with _ | salt
  · exact hE.extractAndExpand _ dname ikm n rfl rfl rfl
  · exact hE.extractAndExpand _ dname ikm n rfl rfl rfl

/-- The length that is asked for is the one that an extracted key has. -/
theorem derive_extract (hE : Hkdf E F) {hash : DigestAlgorithm} {dname : List Byte}
    (hname : witDigestName hash = some dname) (ikm : List Byte) (salt : Option (List Byte)) :
    E.derive (ascii "HKDF") ([⟨.mode, .int (BitVec.ofNat 32 extractOnly)⟩,
      ⟨.digest, .utf8String dname⟩, ⟨.key, .octetString ikm⟩] ++ optional .salt salt)
      (BitVec.ofInt 32 (E.mdSize hash)).toNat = F.extract dname (salt.getD []) ikm := by
  have hfilter : (F.extract dname (salt.getD []) ikm).filter
      (·.length = (BitVec.ofInt 32 (E.mdSize hash)).toNat) =
        F.extract dname (salt.getD []) ikm := by
    rcases hprk : F.extract dname (salt.getD []) ikm with _ | prk
    · rfl
    · obtain ⟨hsize, hle⟩ := hE.size hash dname _ _ hname prk hprk
      have hlen : prk.length = (BitVec.ofInt 32 (E.mdSize hash)).toNat := by
        rw [hsize, BitVec.ofInt_natCast, BitVec.toNat_ofNat]
        omega
      exact Option.filter_eq_some_iff.mpr ⟨rfl, decide_eq_true hlen⟩
  rw [← hfilter]
  rcases salt with _ | salt
  · exact hE.extractOnly _ dname ikm _ rfl rfl rfl
  · exact hE.extractOnly _ dname ikm _ rfl rfl rfl

theorem witDigestMd_eq_some {a md : DigestAlgorithm} (h : witDigestMd b a = some md) : md = a := by
  cases a <;> simp_all [witDigestMd]

/-- HKDF is to extract and then to expand. -/
theorem hkdf_eq_expand_extract (hE : Hkdf E F) (ikm : List Byte) (params : HkdfFullParams)
    (outLen : BitVec 32) (hmd : witDigestMd b params.hash ≠ none) :
    hkdf E ikm params outLen = (hkdfExtract E b ikm ⟨params.hash, params.salt⟩).bind fun prk =>
      hkdfExpand E prk ⟨params.hash, params.info⟩ outLen := by
  obtain ⟨hash, salt, info⟩ := params
  obtain ⟨dname, hname⟩ := exists_witDigestName hash
  obtain ⟨md, hmd⟩ := Option.ne_none_iff_exists'.mp hmd
  obtain rfl := witDigestMd_eq_some hmd
  have hexpand (prk : List Byte) := hE.expandOnly [⟨.mode, .int (BitVec.ofNat 32 expandOnly)⟩,
    ⟨.digest, .utf8String dname⟩, ⟨.key, .octetString prk⟩, ⟨.info, .octetString info⟩] dname prk
    outLen.toNat rfl rfl rfl
  simp only [hkdf, hkdfExtract, hkdfExpand, hname, hmd, Option.elim_some, deriveParams,
    derive_both hE, derive_extract hE hname, hexpand]
  -- a KDF that is not there is not there for any of the three
  split_ifs
  · rfl
  · rfl
  · rcases F.extract dname (salt.getD []) ikm with _ | prk <;> rfl

/-- HKDF, also with a label of TLS 1.3 for its info, is to extract a key and then to expand it, where
the build has the digest: the results agree, and so do the errors. -/
theorem hkdf_eq (hE : Hkdf E F) (b : Build) (ikm : List Byte) (params : HkdfFullParams)
    (outLen : BitVec 32) (hmd : witDigestMd b params.hash ≠ none) :
    (hkdf E ikm params outLen = (hkdfExtract E b ikm ⟨params.hash, params.salt⟩).bind fun prk =>
      hkdfExpand E prk ⟨params.hash, params.info⟩ outLen) ∧
    ∀ (p : Tls13ExpandLabelParams) (l : HkdfLabel), p.hkdfLabel? outLen = some l →
      p.hash = params.hash → l.encode = params.info →
      hkdfExtract E b ikm ⟨params.hash, params.salt⟩ = .ok p.secret.bytes →
      tls13ExpandLabel E.toEvp p outLen = some (hkdf E ikm params outLen) := by
  refine ⟨hkdf_eq_expand_extract hE ikm params outLen hmd, fun p l hl hhash hinfo hprk => ?_⟩
  rw [hkdf_eq_expand_extract hE ikm params outLen hmd, hprk, tls13ExpandLabel_eq_hkdfExpand hl,
    hhash, hinfo]
  rfl

end

/-! ## A plain HKDF -/

/-- An extracted key is the lengths of salt and key; a pseudorandom key is expanded with the info
itself, to four bytes at most. -/
def plainFunctions : HkdfFunctions where
  extract _ salt key := some [BitVec.ofNat 8 salt.length, BitVec.ofNat 8 key.length]
  expand _ prk info n := if n ≤ 4 then some ((prk ++ info).take n) else none

def plainKdf : RequestEvp where
  fetch name := name = ascii "HKDF"
  ctxNew := true
  derive _ ps n :=
    match locate ps .digest, octets ps .key with
    | some (.utf8String d), some key =>
      match number ps .mode with
      | none => (plainFunctions.extract d ((octets ps .salt).getD []) key).bind fun prk =>
          plainFunctions.expand d prk ((octets ps .info).getD []) n
      | some mode =>
        if mode = BitVec.ofNat 32 extractOnly then
          (plainFunctions.extract d ((octets ps .salt).getD []) key).filter (·.length = n)
        else plainFunctions.expand d key ((octets ps .info).getD []) n
    | _, _ => none
  mdSize _ := 2
  lastError := 0

theorem hkdf_plainKdf : Hkdf plainKdf plainFunctions where
  extractAndExpand ps d key n hmode hdigest hkey := by simp [plainKdf, hmode, hdigest, hkey]
  extractOnly ps d key n hmode hdigest hkey := by simp [plainKdf, hmode, hdigest, hkey]
  expandOnly ps d key n hmode hdigest hkey := by
    simp [plainKdf, hmode, hdigest, hkey, expandOnly, extractOnly]
  size a d salt key _ prk hprk := by
    obtain rfl := Option.some.inj hprk
    exact ⟨rfl, by simp⟩

/-- Three bytes from the two lengths and the info; and five, which are too many. -/
theorem hkdf_eq_plainKdf :
    hkdf plainKdf [1, 2] ⟨.sha256, some [5], [7]⟩ 3 = .ok [1, 2, 7] ∧
      hkdf plainKdf [1, 2] ⟨.sha256, some [5], [7]⟩ 5 = .error (.internal 0) :=
  have key (outLen : BitVec 32) := (hkdf_eq hkdf_plainKdf ⟨false, false, false⟩ [1, 2]
    ⟨.sha256, some [5], [7]⟩ outLen (by decide)).1
  ⟨(key 3).trans rfl, (key 5).trans rfl⟩

end OpenSSLWasm.Kdf
