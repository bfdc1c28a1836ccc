import OpenSSLWasm.Support

/-!
# The EVP cipher contexts of OpenSSL

`src/cipher.c` drives `EVP_CIPHER_CTX` objects of libcrypto, which is not part of the repository.
It enters the model as a parameter: a context is the history of the calls made on it, and an `Evp`
answers each call from the history before it. What the interface relies on is stated apart, as the
hypothesis that such an `Evp` behaves as documented.

## Main definitions

* `EvpCipher` and `Libcrypto`: the ciphers and what libcrypto says about each;
* `EvpCall`, `Ctx` and `Evp`: the calls, the contexts and how they are answered;
* `Session`: what the successful calls on a context have told it;
* `Evp.Documented`: the documented behaviour, relative to the AEAD algorithms as functions.

## Main results

* `Evp.initCall_some` and `Evp.initCall_none`: how many bytes initialisation reads;
* `Evp.session_cons` and `Evp.output_cons`: what a successful call adds.
-/

namespace OpenSSLWasm.Cipher

/-! ## Ciphers -/

/-- The key sizes of AES, Camellia and ARIA. -/
inductive KeySize
  | k128 | k192 | k256
  deriving DecidableEq, Repr

/-- The modes in which AES is offered. -/
inductive AesMode
  | ecb | cbc | ctr | cfb | ofb | xts | gcm | ccm | ocb
  deriving DecidableEq, Repr

/-- The `EVP_CIPHER` objects that the interface uses. -/
inductive EvpCipher
  | aes (size : KeySize) (mode : AesMode)
  | chacha20
  | chacha20Poly1305
  | camelliaCbc (size : KeySize)
  | ariaGcm (size : KeySize)
  | sm4Cbc
  | sm4Gcm
  | desEde3Cbc
  | rc4
  deriving DecidableEq, Repr

namespace EvpCipher

/-- The ciphers that are used through the AEAD calls of EVP. -/
def isAead : EvpCipher → Bool
  | aes _ .gcm | aes _ .ccm | aes _ .ocb | chacha20Poly1305 | ariaGcm _ | sm4Gcm => true
  | _ => false

/-- The ciphers that EVP drives in CCM mode. -/
def isCcm : EvpCipher → Bool
  | aes _ .ccm => true
  | _ => false

end EvpCipher

/-- The linked libcrypto: which ciphers it was built with, and the lengths it uses for each. -/
structure Libcrypto where
  /-- `OPENSSL_NO_CAMELLIA` is not defined. -/
  camellia : Bool
  /-- `OPENSSL_NO_ARIA` is not defined. -/
  aria : Bool
  /-- `OPENSSL_NO_SM4` is not defined. -/
  sm4 : Bool
  /-- `EVP_CIPHER_fetch` finds SM4-GCM. -/
  sm4Gcm : Bool
  /-- `EVP_CIPHER_get_key_length`. -/
  keyLength : EvpCipher → ℕ
  /-- `EVP_CIPHER_get_iv_length`, the length of an IV unless another one is set. -/
  ivLength : EvpCipher → ℕ
  /-- `EVP_CIPHER_get_block_size`. -/
  blockSize : EvpCipher → ℕ
  /-- The IV lengths that `EVP_CTRL_AEAD_SET_IVLEN` accepts. -/
  acceptsIvLen : EvpCipher → ℕ → Bool
  /-- The tag lengths that the AEAD controls accept. -/
  acceptsTagLen : EvpCipher → ℕ → Bool
  keyLength_lt : ∀ c, keyLength c < 2 ^ 31
  ivLength_lt : ∀ c, ivLength c < 2 ^ 31
  acceptsTagLen_16 : ∀ c, c.isAead = true → acceptsTagLen c 16 = true

/-! ## Contexts -/

/-- A call on a context, with what it reads of the caller's memory. -/
inductive EvpCall
  /-- `EVP_EncryptInit_ex2`, `EVP_DecryptInit_ex2` and `EVP_CipherInit_ex2`. -/
  | init (enc : Bool) (cipher : Option EvpCipher) (key iv : Option (List Byte))
  /-- `EVP_CIPHER_CTX_set_padding`. -/
  | setPadding (pad : Bool)
  /-- `EVP_CTRL_AEAD_SET_IVLEN`. -/
  | setIvLen (n : ℤ)
  /-- `EVP_CTRL_AEAD_SET_TAG`, with the tag or for its length alone. -/
  | setTag (n : ℤ) (tag : Option (List Byte))
  /-- `EVP_CTRL_AEAD_GET_TAG`. -/
  | getTag (n : ℤ)
  /-- `EVP_EncryptUpdate`, `EVP_DecryptUpdate` and `EVP_CipherUpdate`; without an output buffer
  the input is additional data, without an input it announces a length. -/
  | update (out : Bool) (inp : Option (List Byte)) (inl : ℤ)
  /-- `EVP_EncryptFinal_ex`, `EVP_DecryptFinal_ex` and `EVP_CipherFinal_ex`. -/
  | final
  deriving DecidableEq, Repr

namespace EvpCall

/-- The calls that work on the cipher of the context. -/
def needsCipher : EvpCall → Bool
  | init .. | setPadding _ => false
  | _ => true

/-- The output for the data so far, after a call that wrote some bytes. -/
def collect (c : EvpCall) (soFar out : List Byte) : List Byte :=
  match c with
  | init _ (some _) _ _ => []
  | update true _ _ | final => soFar ++ out
  | _ => soFar

/-- An update with a list: its bytes, and its length as an `int`. -/
def updateList (out : Bool) (l : ListU8) : EvpCall := .update out (some l.bytes) (cInt l.len)

/-- A control with a list as the tag. -/
def setTagList (l : ListU8) : EvpCall := .setTag (cInt l.len) (some l.bytes)

end EvpCall

/-- What a call returns, and the bytes it writes. -/
structure Response where
  ret : ℤ
  out : List Byte
  deriving DecidableEq, Repr

/-- The calls made on a context so far, the latest first. -/
abbrev History := List EvpCall

/-- A context; `none` is the null pointer. -/
abbrev Ctx := Option History

namespace Ctx

/-- The context after a call. -/
def push (ctx : Ctx) (c : EvpCall) : Ctx := ctx.map (c :: ·)

@[simp] theorem push_some (h : History) (c : EvpCall) : push (some h) c = some (c :: h) := rfl

end Ctx

/-- The EVP layer. -/
structure Evp where
  lib : Libcrypto
  /-- There is memory for a new context. -/
  alloc : Bool
  call : Ctx → EvpCall → Response
  /-- `EVP_CIPHER_CTX_get_key_length`. -/
  ctxKeyLength : Ctx → ℤ
  /-- `ERR_peek_last_error`, after the calls on this context. -/
  peekLastError : Ctx → BitVec 32

/-! ## Sessions -/

/-- What a context has been told. -/
structure Session where
  cipher : Option EvpCipher := none
  enc : Bool := false
  /-- The number of bytes that are read at an IV pointer. -/
  ivLen : ℕ := 0
  key : Option (List Byte) := none
  iv : Option (List Byte) := none
  aad : List Byte := []
  data : List Byte := []
  tag : Option (List Byte) := none
  /-- Some data was processed. -/
  started : Bool := false
  /-- Additional data was given after some data was processed. -/
  aadLate : Bool := false
  finished : Bool := false
  deriving DecidableEq, Repr

namespace Session

/-- The effect of a successful call. Naming a cipher starts the context afresh. -/
def next (L : Libcrypto) (s : Session) : EvpCall → Session
  | .init enc cipher key iv =>
    -- naming a cipher brings back its default IV length; a key or an IV that is not given stays
    let s : Session := match cipher with
      | some c => { cipher := some c, ivLen := L.ivLength c }
      | none => s
    { s with enc, key := key <|> s.key, iv := iv <|> s.iv }
  | .setPadding _ | .getTag _ => s
  | .setIvLen n => { s with ivLen := n.toNat }
  | .setTag _ tag => { s with tag := tag <|> s.tag }
  | .update true inp _ => { s with data := s.data ++ inp.getD [], started := true }
  | .update false none _ => s
  | .update false (some inp) _ =>
    -- additional data after the data is remembered, as nothing is documented about it
    { s with aad := s.aad ++ inp, aadLate := s.aadLate || s.started }
  | .final => { s with finished := true }

end Session

namespace Evp

variable (E : Evp)

/-- `EVP_CIPHER_CTX_new`. -/
def ctxNew : Ctx := if E.alloc then some [] else none

/-- What the successful calls of a history have told the context. -/
def session : History → Session
  | [] => {}
  | c :: h => if (E.call (some h) c).ret = 1 then (session h).next E.lib c else session h

/-- The output for the data since a cipher was named. -/
def output : History → List Byte
  | [] => []
  | c :: h =>
    if (E.call (some h) c).ret = 1 then c.collect (output h) (E.call (some h) c).out else output h

/-- The session of a context, the empty one for the null pointer. -/
def ctxSession (ctx : Ctx) : Session := (ctx.map E.session).getD {}

/-- Initialisation reads exactly as many bytes at the key and IV pointers as the cipher's key
length and the context's IV length. -/
def initCall (ctx : Ctx) (enc : Bool) (cipher : Option EvpCipher) (key iv : Option Ptr) :
    EvpCall :=
  -- the lengths are those after the cipher was named, if it is
  let s := (E.ctxSession ctx).next E.lib (.init enc cipher none none)
  .init enc cipher (key.map fun p => readBytes p ((s.cipher.map E.lib.keyLength).getD 0))
    (iv.map fun p => readBytes p s.ivLen)

end Evp

/-! ## Documented behaviour -/

/-- The AEAD algorithms as functions. Encryption and decryption apply to the whole data, the tag
of a given length authenticates additional data and ciphertext. Where a context has no IV, they
are whatever the implementation falls back to. -/
structure Aead where
  encrypt : EvpCipher → List Byte → Option (List Byte) → List Byte → List Byte → List Byte
  decrypt : EvpCipher → List Byte → Option (List Byte) → List Byte → List Byte → List Byte
  authTag : EvpCipher → List Byte → Option (List Byte) → List Byte → List Byte → ℕ → List Byte

/-- The session runs a cipher whose tag is checked in Final. -/
structure Session.ChecksInFinal (s : Session) (c : EvpCipher) : Prop where
  cipher : s.cipher = some c
  isAead : c.isAead = true
  isCcm : c.isCcm = false

/-- The documented behaviour of EVP that the interface relies on. The laws about data are those of
the modes that check the tag in Final: GCM, OCB and ChaCha20-Poly1305. -/
structure Evp.Documented (E : Evp) (A : Aead) : Prop where
  ctxKeyLength : ∀ {h c}, (E.session h).cipher = some c →
    E.ctxKeyLength (some h) = E.lib.keyLength c
  /-- No call succeeds on a null pointer. -/
  call_null : ∀ c, (E.call none c).ret = 0
  /-- Nor on a context without a cipher, if it works on the cipher. -/
  call_noCipher : ∀ {h c}, (E.session h).cipher = none → c.needsCipher = true →
    (E.call (some h) c).ret = 0
  /-- Final returns 1 for success and 0 for failure. -/
  ret_final : ∀ ctx, (E.call ctx .final).ret = 0 ∨ (E.call ctx .final).ret = 1
  /-- An AEAD cipher takes any key and IV. -/
  init : ∀ {h c enc cipher key iv}, (cipher <|> (E.session h).cipher) = some c →
    c.isAead = true → (E.call (some h) (.init enc cipher key iv)).ret = 1
  setIvLen : ∀ {h c n}, (E.session h).cipher = some c → c.isAead = true →
    ((E.call (some h) (.setIvLen n)).ret = 1 ↔ 0 ≤ n ∧ E.lib.acceptsIvLen c n.toNat = true)
  setTag : ∀ {h c n tag}, (E.session h).ChecksInFinal c → (E.session h).enc = false →
    ((E.call (some h) (.setTag n (some tag))).ret = 1 ↔
      0 ≤ n ∧ E.lib.acceptsTagLen c n.toNat = true)
  getTag : ∀ {h c n}, (E.session h).ChecksInFinal c → (E.session h).enc = true →
    (E.session h).finished = true →
    ((E.call (some h) (.getTag n)).ret = 1 ↔ 0 ≤ n ∧ E.lib.acceptsTagLen c n.toNat = true)
  getTag_out : ∀ {h c key n}, (E.session h).ChecksInFinal c → (E.session h).enc = true →
    (E.session h).finished = true → (E.session h).aadLate = false →
    (E.session h).key = some key → (E.call (some h) (.getTag n)).ret = 1 →
    (E.call (some h) (.getTag n)).out =
      A.authTag c key (E.session h).iv (E.session h).aad
        (A.encrypt c key (E.session h).iv (E.session h).aad (E.session h).data) n.toNat
  /-- Data of any length is processed once there are a key and an IV; additional data comes
  first. -/
  update : ∀ {h c out inp n}, (E.session h).ChecksInFinal c → (E.session h).key.isSome = true →
    (E.session h).iv.isSome = true → (E.session h).finished = false →
    (out = true ∨ (E.session h).started = false) → 0 ≤ n →
    (E.call (some h) (.update out (some inp) n)).ret = 1
  update_neg : ∀ {h out inp n}, n < 0 → (E.call (some h) (.update out inp n)).ret ≠ 1
  final_encrypt : ∀ {h c}, (E.session h).ChecksInFinal c → (E.session h).enc = true →
    (E.session h).key.isSome = true → (E.session h).iv.isSome = true →
    (E.session h).finished = false → (E.call (some h) .final).ret = 1
  /-- However the data was cut, the outputs make up the encryption of the whole. -/
  final_encrypt_out : ∀ {h c key}, (E.session h).ChecksInFinal c → (E.session h).enc = true →
    (E.session h).key = some key → (E.session h).finished = false →
    (E.session h).aadLate = false → (E.call (some h) .final).ret = 1 →
    E.output (.final :: h) =
      A.encrypt c key (E.session h).iv (E.session h).aad (E.session h).data
  /-- Decryption ends successfully only if the tag that was set authenticates the data. -/
  final_decrypt : ∀ {h c}, (E.session h).ChecksInFinal c → (E.session h).enc = false →
    (E.session h).finished = false → (E.session h).aadLate = false →
    (E.call (some h) .final).ret = 1 →
    ∃ key tag, (E.session h).key = some key ∧ (E.session h).tag = some tag ∧
      tag = A.authTag c key (E.session h).iv (E.session h).aad (E.session h).data tag.length
  final_decrypt_ret : ∀ {h c key tag}, (E.session h).ChecksInFinal c →
    (E.session h).enc = false → (E.session h).finished = false →
    (E.session h).aadLate = false → (E.session h).key = some key →
    (E.session h).iv.isSome = true → (E.session h).tag = some tag →
    tag = A.authTag c key (E.session h).iv (E.session h).aad (E.session h).data tag.length →
    (E.call (some h) .final).ret = 1
  final_decrypt_out : ∀ {h c key}, (E.session h).ChecksInFinal c → (E.session h).enc = false →
    (E.session h).key = some key → (E.session h).finished = false →
    (E.session h).aadLate = false → (E.call (some h) .final).ret = 1 →
    E.output (.final :: h) =
      A.decrypt c key (E.session h).iv (E.session h).aad (E.session h).data
  /-- In CCM mode the tag is checked when the ciphertext is processed. Final does nothing, and
  succeeds once there is a key. -/
  final_ccm : ∀ {h c}, (E.session h).cipher = some c → c.isCcm = true →
    (E.session h).enc = false → (E.session h).key.isSome = true →
    (E.call (some h) .final).ret = 1

/-! ## Sessions after a call -/

namespace Evp

variable {E : Evp}

/-- Initialisation with a cipher reads the lengths of that cipher. -/
theorem initCall_some (ctx : Ctx) (enc : Bool) (c : EvpCipher) (key : Ptr) (iv : Option Ptr) :
    E.initCall ctx enc (some c) (some key) iv =
      .init enc (some c) (some (readBytes key (E.lib.keyLength c)))
        (iv.map fun p => readBytes p (E.lib.ivLength c)) :=
  rfl

/-- Initialisation without a cipher reads the lengths of the context. -/
theorem initCall_none {h : History} {c : EvpCipher} (hc : (E.session h).cipher = some c)
    (enc : Bool) (key iv : Ptr) :
    E.initCall (some h) enc none (some key) (some iv) =
      .init enc none (some (readBytes key (E.lib.keyLength c)))
        (some (readBytes iv (E.session h).ivLen)) := by
  simp [initCall, ctxSession, Session.next, hc]

theorem session_cons {h : History} {c : EvpCall} (hc : (E.call (some h) c).ret = 1) :
    E.session (c :: h) = (E.session h).next E.lib c :=
  if_pos hc

theorem output_cons {h : History} {c : EvpCall} (hc : (E.call (some h) c).ret = 1) :
    E.output (c :: h) = c.collect (E.output h) (E.call (some h) c).out :=
  if_pos hc

theorem output_cons_of_ne {h : History} {c : EvpCall} (hc : (E.call (some h) c).ret ≠ 1) :
    E.output (c :: h) = E.output h :=
  if_neg hc

theorem session_cons_of_ne {h : History} {c : EvpCall} (hc : (E.call (some h) c).ret ≠ 1) :
    E.session (c :: h) = E.session h :=
  if_neg hc

/-- A tag that is set, successfully or not, leaves the rest of the session as it is. -/
theorem session_setTag (h : History) (n : ℤ) (tag : Option (List Byte)) :
    ∃ t, E.session (.setTag n tag :: h) = { E.session h with tag := t } := by
  by_cases hc : (E.call (some h) (.setTag n tag)).ret = 1
  · exact ⟨_, session_cons hc⟩
  · exact ⟨_, session_cons_of_ne hc⟩

/-- Calls other than initialisation leave cipher, direction and key of a session as they are. -/
theorem session_of_needsCipher (h : History) {c : EvpCall} (hc : c.needsCipher = true) :
    (E.session (c :: h)).cipher = (E.session h).cipher ∧
      (E.session (c :: h)).enc = (E.session h).enc ∧
      (E.session (c :: h)).key = (E.session h).key := by
  by_cases hret : (E.call (some h) c).ret = 1
  · rw [session_cons hret]
    -- only initialisation writes one of the three fields
    cases c with
    | init enc cipher key iv => cases hc
    | setPadding pad => cases hc
    | setIvLen n => exact ⟨rfl, rfl, rfl⟩
    | setTag n tag => exact ⟨rfl, rfl, rfl⟩
    | getTag n => exact ⟨rfl, rfl, rfl⟩
    | update out inp n =>
      cases out with
      | true => exact ⟨rfl, rfl, rfl⟩
      | false => cases inp <;> exact ⟨rfl, rfl, rfl⟩
    | final => exact ⟨rfl, rfl, rfl⟩
  · rw [session_cons_of_ne hret]
    exact ⟨rfl, rfl, rfl⟩

/-- The padding is no part of a session. -/
theorem session_setPadding (h : History) (pad : Bool) :
    E.session (.setPadding pad :: h) = E.session h := by
  by_cases hc : (E.call (some h) (.setPadding pad)).ret = 1
  · exact session_cons hc
  · exact session_cons_of_ne hc

end Evp

end OpenSSLWasm.Cipher
