import OpenSSLWasm.Cipher.Evp
import OpenSSLWasm.Lib.Transcript

/-!
# The cipher interface

The functions of `src/cipher.c`, over a libcrypto given by an `Evp`. Output buffers are the bytes
that EVP writes; freeing memory and contexts has no counterpart.

## Main definitions

* `oneShot`, `encrypt` and `decrypt`: the calls for ciphers without authentication;
* `aeadSeal` and `aeadOpen`: the calls `seal` and `open`;
* `Encryptor` and `Decryptor`: the streaming resources.
-/

namespace OpenSSLWasm.Cipher

/-! ## Algorithms -/

/-- `algorithm`, in the order of the interface definition. -/
inductive Algorithm
  | aes128Ecb | aes192Ecb | aes256Ecb
  | aes128Cbc | aes192Cbc | aes256Cbc
  | aes128Ctr | aes192Ctr | aes256Ctr
  | aes128Cfb | aes192Cfb | aes256Cfb
  | aes128Ofb | aes192Ofb | aes256Ofb
  | aes128Xts | aes256Xts
  | aes128Gcm | aes192Gcm | aes256Gcm
  | aes128Ccm | aes192Ccm | aes256Ccm
  | aes128Ocb | aes192Ocb | aes256Ocb
  | chacha20 | chacha20Poly1305
  | camellia128Cbc | camellia192Cbc | camellia256Cbc
  | aria128Gcm | aria192Gcm | aria256Gcm
  | sm4Cbc | sm4Gcm
  | desEde3Cbc | rc4
  deriving DecidableEq, Repr

/-- The number that stands for an algorithm in the C code. -/
def Algorithm.toNat (a : Algorithm) : ℕ := a.ctorIdx

/-- The cipher of an algorithm, if libcrypto has it. -/
def cipherByAlg (L : Libcrypto) (a : Algorithm) : Option EvpCipher :=
  match a.toNat with
  | 0 => some (.aes .k128 .ecb)
  | 1 => some (.aes .k192 .ecb)
  | 2 => some (.aes .k256 .ecb)
  | 3 => some (.aes .k128 .cbc)
  | 4 => some (.aes .k192 .cbc)
  | 5 => some (.aes .k256 .cbc)
  | 6 => some (.aes .k128 .ctr)
  | 7 => some (.aes .k192 .ctr)
  | 8 => some (.aes .k256 .ctr)
  | 9 => some (.aes .k128 .cfb)
  | 10 => some (.aes .k192 .cfb)
  | 11 => some (.aes .k256 .cfb)
  | 12 => some (.aes .k128 .ofb)
  | 13 => some (.aes .k192 .ofb)
  | 14 => some (.aes .k256 .ofb)
  | 15 => some (.aes .k128 .xts)
  | 16 => some (.aes .k256 .xts)
  | 17 => some (.aes .k128 .gcm)
  | 18 => some (.aes .k192 .gcm)
  | 19 => some (.aes .k256 .gcm)
  | 20 => some (.aes .k128 .ccm)
  | 21 => some (.aes .k192 .ccm)
  | 22 => some (.aes .k256 .ccm)
  | 23 => some (.aes .k128 .ocb)
  | 24 => some (.aes .k192 .ocb)
  | 25 => some (.aes .k256 .ocb)
  | 26 => some .chacha20
  | 27 => some .chacha20Poly1305
  | 28 => if L.camellia then some (.camelliaCbc .k128) else none
  | 29 => if L.camellia then some (.camelliaCbc .k192) else none
  | 30 => if L.camellia then some (.camelliaCbc .k256) else none
  | 31 => if L.aria then some (.ariaGcm .k128) else none
  | 32 => if L.aria then some (.ariaGcm .k192) else none
  | 33 => if L.aria then some (.ariaGcm .k256) else none
  | 34 => if L.sm4 then some .sm4Cbc else none
  | 35 => if L.sm4 && L.sm4Gcm then some .sm4Gcm else none
  | 36 => some .desEde3Cbc
  | 37 => some .rc4
  | _ => none

def algIsAead (a : Algorithm) : Bool :=
  match a.toNat with
  | 17 | 18 | 19 => true
  | 20 | 21 | 22 => true
  | 23 | 24 | 25 => true
  | 27 => true
  | 31 | 32 | 33 => true
  | 35 => true
  | _ => false

def isCcm (a : Algorithm) : Bool := a.toNat == 20 || a.toNat == 21 || a.toNat == 22

/-- The code classifies algorithms as EVP classifies their ciphers. -/
theorem algIsAead_and_isCcm_eq {L : Libcrypto} {a : Algorithm} {c : EvpCipher}
    (h : cipherByAlg L a = some c) : algIsAead a = c.isAead ∧ isCcm a = c.isCcm := by
  -- the ciphers that libcrypto may lack stand behind an `if`
  cases a <;>
    first
    | (obtain rfl := Option.some.inj h
       exact ⟨rfl, rfl⟩)
    | (obtain ⟨-, h⟩ := Option.ite_none_right_eq_some.mp h
       obtain rfl := Option.some.inj h
       exact ⟨rfl, rfl⟩)

theorem algIsAead_eq {L : Libcrypto} {a : Algorithm} {c : EvpCipher}
    (h : cipherByAlg L a = some c) : algIsAead a = c.isAead :=
  (algIsAead_and_isCcm_eq h).1

theorem isCcm_eq {L : Libcrypto} {a : Algorithm} {c : EvpCipher}
    (h : cipherByAlg L a = some c) : isCcm a = c.isCcm :=
  (algIsAead_and_isCcm_eq h).2

/-! ## Errors and calls that may fail -/

/-- `cipher-error`. -/
inductive CipherError
  | unsupportedAlgorithm
  | badKeySize
  | badIvSize
  | badTagSize
  | badPadding
  | aeadRequired
  | notAead
  | outputBufferTooSmall
  | tagMismatch
  | internal (code : BitVec 32)
  deriving DecidableEq, Repr

/-- `padding-mode`. -/
inductive PaddingMode
  | none
  | pkcs7
  deriving DecidableEq, Repr

/-- `algorithm-info`. -/
structure AlgorithmInfo where
  keySize : ℕ
  ivSize : ℕ
  blockSize : ℕ
  isAead : Bool
  deriving DecidableEq, Repr

def info (L : Libcrypto) (alg : Algorithm) : Except CipherError AlgorithmInfo :=
  match cipherByAlg L alg with
  | none => .error .unsupportedAlgorithm
  | some c => .ok
    { keySize := L.keyLength c
      ivSize := L.ivLength c
      blockSize := L.blockSize c
      isAead := algIsAead alg }

namespace Evp

variable (E : Evp)

/-- The error for a failure that OpenSSL's error queue explains. -/
def internalError (ctx : Ctx) : CipherError := .internal (E.peekLastError ctx)

/-- The output of a call, or an error unless it returns 1. -/
def attempt (ctx : Ctx) (c : EvpCall) (err : Ctx → CipherError) : Except CipherError (List Byte) :=
  if (E.call ctx c).ret = 1 then .ok (E.call ctx c).out else .error (err (ctx.push c))

end Evp

/-- Code that works on one context and may give up with an error. -/
abbrev EvpM := StateT Ctx (Except CipherError)

namespace EvpM

variable (E : Evp)

/-- Make a call, ignoring what it returns. -/
def perform (c : EvpCall) : EvpM Unit := fun ctx => .ok ((), ctx.push c)

/-- Make a call and go on with its output, or give up unless it returns 1. -/
def expect (c : EvpCall) (err : Ctx → CipherError) : EvpM (List Byte) := fun ctx =>
  (E.attempt ctx c err).map fun out => (out, ctx.push c)

/-- Initialise the context, or give up unless that returns 1. -/
def expectInit (enc : Bool) (cipher : Option EvpCipher) (key iv : Option Ptr)
    (err : CipherError) : EvpM Unit := fun ctx =>
  (E.attempt ctx (E.initCall ctx enc cipher key iv) fun _ => err).map fun _ =>
    ((), ctx.push (E.initCall ctx enc cipher key iv))

/-- Give up unless the key length of the context is `n`. -/
def expectKeyLength (n : ℤ) (err : CipherError) : EvpM Unit := fun ctx =>
  if n = E.ctxKeyLength ctx then .ok ((), ctx) else .error err

/-! How a computation that succeeded went, step by step. -/

variable {E} {α : Type} {ctx : Ctx} {r : α}

theorem run'_eq_ok {x : EvpM α} : x.run' ctx = .ok r ↔ ∃ ctx', x ctx = .ok (r, ctx') := by
  rw [StateT.run']
  cases x ctx with
  | error e => simp [Functor.map, Except.map]
  | ok p =>
    obtain ⟨a, ctx'⟩ := p
    simp [Functor.map, Except.map]

variable {ctx' : Ctx}

theorem pure_eq_ok {a : α} : (pure a : EvpM α) ctx = .ok (r, ctx') ↔ a = r ∧ ctx = ctx' := by
  show (Except.ok (a, ctx) : Except CipherError (α × Ctx)) = .ok (r, ctx') ↔ _
  rw [Except.ok.injEq, Prod.mk.injEq]

theorem perform_bind_eq_ok {c : EvpCall} {f : Unit → EvpM α} :
    (perform c >>= f) ctx = .ok (r, ctx') ↔ f () (ctx.push c) = .ok (r, ctx') :=
  Iff.rfl

theorem expect_bind_eq_ok {c : EvpCall} {err : Ctx → CipherError} {f : List Byte → EvpM α} :
    (expect E c err >>= f) ctx = .ok (r, ctx') ↔
      (E.call ctx c).ret = 1 ∧ f (E.call ctx c).out (ctx.push c) = .ok (r, ctx') := by
  by_cases h : (E.call ctx c).ret = 1 <;>
    simp [bind, StateT.bind, Except.bind, expect, Evp.attempt, Except.map, h]

theorem expectInit_bind_eq_ok {enc : Bool} {cipher : Option EvpCipher} {key iv : Option Ptr}
    {err : CipherError} {f : Unit → EvpM α} :
    (expectInit E enc cipher key iv err >>= f) ctx = .ok (r, ctx') ↔
      (E.call ctx (E.initCall ctx enc cipher key iv)).ret = 1 ∧
        f () (ctx.push (E.initCall ctx enc cipher key iv)) = .ok (r, ctx') := by
  by_cases h : (E.call ctx (E.initCall ctx enc cipher key iv)).ret = 1 <;>
    simp [bind, StateT.bind, Except.bind, expectInit, Evp.attempt, Except.map, h]

theorem expectKeyLength_bind_eq_ok {n : ℤ} {err : CipherError} {f : Unit → EvpM α} :
    (expectKeyLength E n err >>= f) ctx = .ok (r, ctx') ↔
      n = E.ctxKeyLength ctx ∧ f () ctx = .ok (r, ctx') := by
  by_cases h : n = E.ctxKeyLength ctx <;>
    simp [bind, StateT.bind, Except.bind, expectKeyLength, h]

/-! How a computation goes on after a step that succeeds, and what it gives up with. -/

theorem perform_bind (c : EvpCall) (f : Unit → EvpM α) :
    (perform c >>= f) ctx = f () (ctx.push c) :=
  rfl

theorem expect_bind_of_ret {c : EvpCall} {err : Ctx → CipherError} {f : List Byte → EvpM α}
    (h : (E.call ctx c).ret = 1) :
    (expect E c err >>= f) ctx = f (E.call ctx c).out (ctx.push c) := by
  simp [bind, StateT.bind, Except.bind, expect, Evp.attempt, Except.map, h]

theorem expect_bind_of_ret_ne {c : EvpCall} {err : Ctx → CipherError} {f : List Byte → EvpM α}
    (h : (E.call ctx c).ret ≠ 1) :
    (expect E c err >>= f) ctx = .error (err (ctx.push c)) := by
  simp [bind, StateT.bind, Except.bind, expect, Evp.attempt, Except.map, h]

theorem expectInit_bind_of_ret {enc : Bool} {cipher : Option EvpCipher} {key iv : Option Ptr}
    {err : CipherError} {f : Unit → EvpM α}
    (h : (E.call ctx (E.initCall ctx enc cipher key iv)).ret = 1) :
    (expectInit E enc cipher key iv err >>= f) ctx =
      f () (ctx.push (E.initCall ctx enc cipher key iv)) := by
  simp [bind, StateT.bind, Except.bind, expectInit, Evp.attempt, Except.map, h]

end EvpM

/-! ## One-shot calls -/

section OneShot

open EvpM

variable (E : Evp)

/-- `one_shot` on a new context. -/
def oneShotBody (doEncrypt : Bool) (c : EvpCipher) (key : ListU8) (maybeIv : Option ListU8)
    (padding : PaddingMode) (inp : ListU8) : EvpM (List Byte) := do
  expectInit E doEncrypt (some c) (some key.ptr) (maybeIv.map ListU8.ptr) .badKeySize
  -- the key was read by now
  expectKeyLength E (cInt key.len) .badKeySize
  perform (.setPadding (padding = .pkcs7))
  let out1 ← expect E (.updateList true inp) E.internalError
  let out2 ← expect E .final fun ctx => if doEncrypt then E.internalError ctx else .badPadding
  return out1 ++ out2

/-- The shared body of `encrypt` and `decrypt`. -/
def oneShot (doEncrypt : Bool) (alg : Algorithm) (key : ListU8) (maybeIv : Option ListU8)
    (padding : PaddingMode) (inp : ListU8) : Except CipherError (List Byte) :=
  match cipherByAlg E.lib alg with
  | none => .error .unsupportedAlgorithm
  | some c =>
    if algIsAead alg then .error .aeadRequired
    else if E.ctxNew = none then .error (.internal 0)
    else (oneShotBody E doEncrypt c key maybeIv padding inp).run' E.ctxNew

def encrypt (alg : Algorithm) (key : ListU8) (iv : Option ListU8) (padding : PaddingMode)
    (plaintext : ListU8) : Except CipherError (List Byte) :=
  oneShot E true alg key iv padding plaintext

def decrypt (alg : Algorithm) (key : ListU8) (iv : Option ListU8) (padding : PaddingMode)
    (ciphertext : ListU8) : Except CipherError (List Byte) :=
  oneShot E false alg key iv padding ciphertext

/-- `aead-sealed`. -/
structure AeadSealed where
  ciphertext : List Byte
  tag : List Byte
  deriving DecidableEq, Repr

/-- How `seal` and `open` begin: they name the cipher, set the length of the nonce, in CCM mode
the tag or its length, and only then the key and the nonce. -/
def aeadSetup (enc : Bool) (c : EvpCipher) (key nonce : ListU8) (ccmTag : Option EvpCall) :
    EvpM Unit := do
  expectInit E enc (some c) none none .badIvSize
  -- a nonce of 2³¹ bytes or more has a negative length here
  let _ ← expect E (.setIvLen (cInt nonce.len)) fun _ => .badIvSize
  -- what the control returns is ignored
  if let some setTag := ccmTag then
    perform setTag
  -- the key is read whatever its length
  expectInit E enc none (some key.ptr) (some nonce.ptr) .badKeySize

/-- How they go on: in CCM mode the total length of the data comes first, and empty additional
data is left out. -/
def aeadUpdate (alg : Algorithm) (aad data : ListU8) : EvpM (List Byte) := do
  -- again, what this returns is ignored
  if isCcm alg then
    perform (.update false none (cInt data.len))
  if aad.len ≠ 0 then
    let _ ← expect E (.updateList false aad) E.internalError
  expect E (.updateList true data) E.internalError

/-- `seal` on a new context. -/
def sealBody (alg : Algorithm) (c : EvpCipher) (key nonce aad plaintext : ListU8)
    (tagLen : BitVec 32) : EvpM AeadSealed := do
  -- for encryption, CCM is told the length of the tag, for decryption the tag itself
  aeadSetup E true c key nonce
    (if isCcm alg then some (.setTag (cInt tagLen.toNat) none) else none)
  let out1 ← aeadUpdate E alg aad plaintext
  let out2 ← expect E .final E.internalError
  let tag ← expect E (.getTag (cInt tagLen.toNat)) fun _ => .badTagSize
  return { ciphertext := out1 ++ out2, tag }

def aeadSeal (alg : Algorithm) (key nonce aad plaintext : ListU8) (tagLen : BitVec 32) :
    Except CipherError AeadSealed :=
  match cipherByAlg E.lib alg with
  | none => .error .unsupportedAlgorithm
  | some c =>
    if !algIsAead alg then .error .notAead
    else if E.ctxNew = none then .error (.internal 0)
    else
      (sealBody E alg c key nonce aad plaintext tagLen).run' E.ctxNew

/-- `open` on a new context. -/
def openBody (alg : Algorithm) (c : EvpCipher) (key nonce aad ciphertext tag : ListU8) :
    EvpM (List Byte) := do
  aeadSetup E false c key nonce (if isCcm alg then some (.setTagList tag) else none)
  let out1 ← aeadUpdate E alg aad ciphertext
  -- outside CCM the tag is checked in Final, so it is enough to set it here
  if !isCcm alg then
    let _ ← expect E (.setTagList tag) fun _ => .badTagSize
  let out2 ← expect E .final fun _ => .tagMismatch
  return out1 ++ out2

def aeadOpen (alg : Algorithm) (key nonce aad ciphertext tag : ListU8) :
    Except CipherError (List Byte) :=
  match cipherByAlg E.lib alg with
  | none => .error .unsupportedAlgorithm
  | some c =>
    if !algIsAead alg then .error .notAead
    else if E.ctxNew = none then .error (.internal 0)
    else
      (openBody E alg c key nonce aad ciphertext tag).run' E.ctxNew

/-- The calls of `aeadSetup` before the key and the nonce, the latest first. -/
def setupHistory (enc : Bool) (c : EvpCipher) (nonce : ListU8) (ccmTag : Option EvpCall) :
    History :=
  ccmTag.toList ++ [.setIvLen (cInt nonce.len), .init enc (some c) none none]

/-- The calls of `aeadSetup`. -/
def keyedHistory (enc : Bool) (c : EvpCipher) (key nonce : ListU8) (ccmTag : Option EvpCall) :
    History :=
  E.initCall (some (setupHistory enc c nonce ccmTag)) enc none (some key.ptr) (some nonce.ptr) ::
    setupHistory enc c nonce ccmTag

variable {E}

theorem ctxNew_of_alloc (h : E.alloc = true) : E.ctxNew = some [] := if_pos h

theorem ctxNew_eq_none : E.ctxNew = none ↔ E.alloc = false := by
  unfold Evp.ctxNew
  split <;> simp [*]

/-- A one-shot call succeeds where its body does on a new context. -/
theorem oneShot_eq_ok {doEncrypt : Bool} {alg : Algorithm} {key : ListU8} {iv : Option ListU8}
    {padding : PaddingMode} {inp : ListU8} {r : List Byte} :
    oneShot E doEncrypt alg key iv padding inp = .ok r ↔
      ∃ c, cipherByAlg E.lib alg = some c ∧ algIsAead alg = false ∧ E.alloc = true ∧
        ∃ ctx', oneShotBody E doEncrypt c key iv padding inp (some []) = .ok (r, ctx') := by
  unfold oneShot
  cases cipherByAlg E.lib alg <;> cases algIsAead alg <;> cases halloc : E.alloc <;>
    simp [ctxNew_eq_none, ctxNew_of_alloc, halloc, run'_eq_ok, -StateT.run'_eq]

theorem aeadSeal_eq_ok {alg : Algorithm} {key nonce aad plaintext : ListU8} {tagLen : BitVec 32}
    {r : AeadSealed} :
    aeadSeal E alg key nonce aad plaintext tagLen = .ok r ↔
      ∃ c, cipherByAlg E.lib alg = some c ∧ algIsAead alg = true ∧ E.alloc = true ∧
        ∃ ctx', sealBody E alg c key nonce aad plaintext tagLen (some []) = .ok (r, ctx') := by
  unfold aeadSeal
  cases cipherByAlg E.lib alg <;> cases algIsAead alg <;> cases halloc : E.alloc <;>
    simp [ctxNew_eq_none, ctxNew_of_alloc, halloc, run'_eq_ok, -StateT.run'_eq]

theorem aeadOpen_eq_ok {alg : Algorithm} {key nonce aad ciphertext tag : ListU8} {r : List Byte} :
    aeadOpen E alg key nonce aad ciphertext tag = .ok r ↔
      ∃ c, cipherByAlg E.lib alg = some c ∧ algIsAead alg = true ∧ E.alloc = true ∧
        ∃ ctx', openBody E alg c key nonce aad ciphertext tag (some []) = .ok (r, ctx') := by
  unfold aeadOpen
  cases cipherByAlg E.lib alg <;> cases algIsAead alg <;> cases halloc : E.alloc <;>
    simp [ctxNew_eq_none, ctxNew_of_alloc, halloc, run'_eq_ok, -StateT.run'_eq]

theorem aeadSetup_bind_eq_ok {α : Type} {enc : Bool} {c : EvpCipher} {key nonce : ListU8}
    {ccmTag : Option EvpCall} {f : Unit → EvpM α} {r : α} {ctx' : Ctx} :
    (aeadSetup E enc c key nonce ccmTag >>= f) (some []) = .ok (r, ctx') ↔
      let h := setupHistory enc c nonce ccmTag
      let init := E.initCall (some h) enc none (some key.ptr) (some nonce.ptr)
      (E.call (some []) (.init enc (some c) none none)).ret = 1 ∧
        (E.call (some [.init enc (some c) none none]) (.setIvLen (cInt nonce.len))).ret = 1 ∧
        (E.call (some h) init).ret = 1 ∧ f () (some (init :: h)) = .ok (r, ctx') := by
  unfold aeadSetup setupHistory
  cases ccmTag <;>
    simp only [bind_assoc, expectInit_bind_eq_ok, expect_bind_eq_ok, perform_bind_eq_ok] <;>
    rfl

/-- The calls of `aeadUpdate` before the data itself, after other calls. -/
def aadHistory (alg : Algorithm) (aad data : ListU8) (h : History) : History :=
  let h := if isCcm alg then .update false none (cInt data.len) :: h else h
  if aad.len ≠ 0 then .updateList false aad :: h else h

theorem aeadUpdate_bind_eq_ok {α : Type} {alg : Algorithm} {aad data : ListU8}
    {f : List Byte → EvpM α} {h : History} {r : α} {ctx' : Ctx} :
    (aeadUpdate E alg aad data >>= f) (some h) = .ok (r, ctx') ↔
      let h1 := if isCcm alg then .update false none (cInt data.len) :: h else h
      let h2 := aadHistory alg aad data h
      (aad.len ≠ 0 → (E.call (some h1) (.updateList false aad)).ret = 1) ∧
        (E.call (some h2) (.updateList true data)).ret = 1 ∧
        f (E.call (some h2) (.updateList true data)).out (some (.updateList true data :: h2)) =
          .ok (r, ctx') := by
  unfold aeadUpdate aadHistory
  by_cases hccm : isCcm alg = true <;> by_cases haad : aad.len ≠ 0 <;>
    simp only [hccm, haad, if_true, if_false, not_false_eq_true, Bool.false_eq_true,
      bind_assoc, perform_bind_eq_ok, expect_bind_eq_ok, Ctx.push_some, ne_eq, forall_const,
      false_imp_iff, true_and]

/-- The session of a context in which the length of the nonce was set, but not yet the key. -/
theorem session_setupHistory {enc : Bool} {c : EvpCipher} {nonce : ListU8} {ccmTag : Option EvpCall}
    (hinit : (E.call (some []) (.init enc (some c) none none)).ret = 1)
    (hlen : (E.call (some [.init enc (some c) none none]) (.setIvLen (cInt nonce.len))).ret = 1)
    (htag : ∀ t ∈ ccmTag, ∃ n tag, t = .setTag n tag) :
    ∃ t, E.session (setupHistory enc c nonce ccmTag) =
      { cipher := some c, enc, ivLen := (cInt nonce.len).toNat, tag := t } := by
  have hsession : E.session [.setIvLen (cInt nonce.len), .init enc (some c) none none] =
      { cipher := some c, enc, ivLen := (cInt nonce.len).toNat } := by
    rw [Evp.session_cons hlen, Evp.session_cons hinit]
    rfl
  cases ccmTag with
  | none => exact ⟨none, hsession⟩
  | some setTag =>
    -- whether the tag was accepted or not, nothing else changed
    obtain ⟨n, tag, rfl⟩ := htag setTag rfl
    obtain ⟨t, ht⟩ := Evp.session_setTag (E := E)
      [.setIvLen (cInt nonce.len), .init enc (some c) none none] n tag
    rw [hsession] at ht
    exact ⟨t, ht⟩

end OneShot

/-! ## Streaming -/

/-- `encryptor_rep`. -/
structure Encryptor where
  ctx : Ctx
  alg : Algorithm
  tagLen : ℤ

/-- `decryptor_rep`. -/
structure Decryptor where
  ctx : Ctx
  alg : Algorithm

def defaultTagLen (_ : Algorithm) : ℤ := 16

section Streaming

variable (E : Evp)

/-- The context that the constructors set up; what initialisation returns is ignored. -/
def constructorCtx (enc : Bool) (alg : Algorithm) (key : ListU8) (maybeIv : Option ListU8)
    (padding : PaddingMode) : Ctx :=
  match cipherByAlg E.lib alg with
  -- the context is kept, although no call on it will succeed
  | none => E.ctxNew
  | some c =>
    (E.ctxNew.push
      (E.initCall E.ctxNew enc (some c) (some key.ptr) (maybeIv.map ListU8.ptr))).push
        (.setPadding (padding = .pkcs7))

def constructorEncryptor (alg : Algorithm) (key : ListU8) (maybeIv : Option ListU8)
    (padding : PaddingMode) : Encryptor where
  ctx := constructorCtx E true alg key maybeIv padding
  alg := alg
  tagLen := defaultTagLen alg

namespace Encryptor

def setAad (r : Encryptor) (aad : ListU8) : Except CipherError Unit × Encryptor :=
  if !algIsAead r.alg then (.error .notAead, r)
  else
    let c := EvpCall.updateList false aad
    ((E.attempt r.ctx c E.internalError).map fun _ => (), { r with ctx := r.ctx.push c })

def update (r : Encryptor) (plaintext : ListU8) : Except CipherError (List Byte) × Encryptor :=
  let c := EvpCall.updateList true plaintext
  (E.attempt r.ctx c E.internalError, { r with ctx := r.ctx.push c })

def finish (r : Encryptor) : Except CipherError (List Byte × Option (List Byte)) :=
  let final := E.call r.ctx .final
  let ctx := r.ctx.push .final
  -- unlike in the other methods, only 0 is taken for a failure
  if final.ret = 0 then .error (E.internalError ctx)
  else if algIsAead r.alg then
    (E.attempt ctx (.getTag r.tagLen) fun _ => .badTagSize).map fun tag => (final.out, some tag)
  else .ok (final.out, none)

end Encryptor

/-- A call on an encryptor. -/
inductive EncryptorCall
  | setAad (aad : ListU8)
  | update (plaintext : ListU8)

namespace EncryptorCall

/-- The call on the context that it makes. -/
def evpCall : EncryptorCall → EvpCall
  | setAad aad => .updateList false aad
  | update plaintext => .updateList true plaintext

/-- What it answers, given the output of that call. -/
def answer : EncryptorCall → List Byte → List Byte
  | setAad _, _ => []
  | update _, out => out

end EncryptorCall

namespace Encryptor

/-- Make a call; setting additional data answers with no bytes. -/
def step (r : Encryptor) : EncryptorCall → Except CipherError (List Byte) × Encryptor
  | .setAad aad => ((r.setAad E aad).1.map fun _ => [], (r.setAad E aad).2)
  | .update plaintext => r.update E plaintext

/-- The transcript of a list of calls, and the encryptor after it. -/
def run (r : Encryptor) (calls : List EncryptorCall) :
    List (EncryptorCall × Except CipherError (List Byte)) × Encryptor :=
  Transcript.run (step E) r calls

/-- What a call can do: it is refused for want of an AEAD algorithm, or makes its call on the
context. -/
theorem step_cases (r : Encryptor) (call : EncryptorCall) :
    (algIsAead r.alg = false ∧ step E r call = (.error .notAead, r)) ∨
      ∃ err, step E r call =
        ((E.attempt r.ctx call.evpCall err).map call.answer,
          { r with ctx := r.ctx.push call.evpCall }) := by
  cases call with
  | setAad aad =>
    cases halg : algIsAead r.alg with
    | false => exact Or.inl ⟨rfl, by simp [step, setAad, halg, Except.map]⟩
    | true =>
      refine Or.inr ⟨E.internalError, ?_⟩
      cases h : E.attempt r.ctx (.updateList false aad) E.internalError <;>
        simp [step, setAad, halg, h, EncryptorCall.evpCall, EncryptorCall.answer, Except.map]
  | update plaintext =>
    refine Or.inr ⟨E.internalError, ?_⟩
    cases h : E.attempt r.ctx (.updateList true plaintext) E.internalError <;>
      simp [step, update, h, EncryptorCall.evpCall, EncryptorCall.answer, Except.map]

end Encryptor

def constructorDecryptor (alg : Algorithm) (key : ListU8) (maybeIv : Option ListU8)
    (padding : PaddingMode) : Decryptor where
  ctx := constructorCtx E false alg key maybeIv padding
  alg := alg

namespace Decryptor

def setAad (r : Decryptor) (aad : ListU8) : Except CipherError Unit × Decryptor :=
  if !algIsAead r.alg then (.error .notAead, r)
  else
    let c := EvpCall.updateList false aad
    ((E.attempt r.ctx c E.internalError).map fun _ => (), { r with ctx := r.ctx.push c })

def setTag (r : Decryptor) (tag : ListU8) : Except CipherError Unit × Decryptor :=
  if !algIsAead r.alg then (.error .notAead, r)
  else
    let c := EvpCall.setTagList tag
    ((E.attempt r.ctx c fun _ => .badTagSize).map fun _ => (), { r with ctx := r.ctx.push c })

def update (r : Decryptor) (ciphertext : ListU8) : Except CipherError (List Byte) × Decryptor :=
  let c := EvpCall.updateList true ciphertext
  (E.attempt r.ctx c E.internalError, { r with ctx := r.ctx.push c })

def finish (r : Decryptor) : Except CipherError (List Byte) :=
  let final := E.call r.ctx .final
  -- whether a tag was set is not looked at
  if final.ret = 0 then .error (if algIsAead r.alg then .tagMismatch else .badPadding)
  else .ok final.out

theorem finish_of_ret {r : Decryptor} (h : (E.call r.ctx .final).ret = 1) :
    r.finish E = .ok (E.call r.ctx .final).out := by
  rw [finish, h]
  rfl

/-- Only 0 counts as a failure, and EVP returns nothing else than 0 and 1. -/
theorem finish_eq_ok {A : Aead} (hE : E.Documented A) {r : Decryptor} {out : List Byte} :
    r.finish E = .ok out ↔
      (E.call r.ctx .final).ret = 1 ∧ (E.call r.ctx .final).out = out := by
  rw [finish]
  rcases hE.ret_final r.ctx with h | h
  · simp [h]
  · simp [h]

end Decryptor

/-- A call on a decryptor. -/
inductive DecryptorCall
  | setAad (aad : ListU8)
  | setTag (tag : ListU8)
  | update (ciphertext : ListU8)

namespace DecryptorCall

/-- The call on the context that it makes. -/
def evpCall : DecryptorCall → EvpCall
  | setAad aad => .updateList false aad
  | setTag tag => .setTagList tag
  | update ciphertext => .updateList true ciphertext

/-- What it answers, given the output of that call. -/
def answer : DecryptorCall → List Byte → List Byte
  | setAad _, _ => []
  | setTag _, _ => []
  | update _, out => out

end DecryptorCall

namespace Decryptor

/-- Make a call; setting additional data or the tag answers with no bytes. -/
def step (r : Decryptor) : DecryptorCall → Except CipherError (List Byte) × Decryptor
  | .setAad aad => ((r.setAad E aad).1.map fun _ => [], (r.setAad E aad).2)
  | .setTag tag => ((r.setTag E tag).1.map fun _ => [], (r.setTag E tag).2)
  | .update ciphertext => r.update E ciphertext

/-- The transcript of a list of calls, and the decryptor after it. -/
def run (r : Decryptor) (calls : List DecryptorCall) :
    List (DecryptorCall × Except CipherError (List Byte)) × Decryptor :=
  Transcript.run (step E) r calls

/-- What a call can do: it is refused for want of an AEAD algorithm, or makes its call on the
context. -/
theorem step_cases (r : Decryptor) (call : DecryptorCall) :
    (algIsAead r.alg = false ∧ step E r call = (.error .notAead, r)) ∨
      ∃ err, step E r call =
        ((E.attempt r.ctx call.evpCall err).map call.answer,
          { r with ctx := r.ctx.push call.evpCall }) := by
  cases call with
  | setAad aad =>
    cases halg : algIsAead r.alg with
    | false => exact Or.inl ⟨rfl, by simp [step, setAad, halg, Except.map]⟩
    | true =>
      refine Or.inr ⟨E.internalError, ?_⟩
      cases h : E.attempt r.ctx (.updateList false aad) E.internalError <;>
        simp [step, setAad, halg, h, DecryptorCall.evpCall, DecryptorCall.answer, Except.map]
  | setTag tag =>
    cases halg : algIsAead r.alg with
    | false => exact Or.inl ⟨rfl, by simp [step, setTag, halg, Except.map]⟩
    | true =>
      refine Or.inr ⟨fun _ => .badTagSize, ?_⟩
      cases h : E.attempt r.ctx (.setTagList tag) fun _ => .badTagSize <;>
        simp [step, setTag, halg, h, DecryptorCall.evpCall, DecryptorCall.answer, Except.map]
  | update ciphertext =>
    refine Or.inr ⟨E.internalError, ?_⟩
    cases h : E.attempt r.ctx (.updateList true ciphertext) E.internalError <;>
      simp [step, update, h, DecryptorCall.evpCall, DecryptorCall.answer, Except.map]

end Decryptor

end Streaming

end OpenSSLWasm.Cipher
