import OpenSSLWasm.Cipher.Aead
import OpenSSLWasm.Cipher.Reference

/-!
# Key and IV lengths

EVP reads keys and IVs through bare pointers, so it is for the interface to refuse lists that are
too short. This file states what refusing them means for all six entry points at once, and for
which of their arguments they do.

## Main definitions

* `Setup`: an entry point with its algorithm, key and IV or nonce;
* `Setup.WellSized`: the key has the length of the algorithm, and EVP reads no more of the IV than
  there is;
* `Setup.Guarded`: whatever the other arguments, only a well sized key and IV get an answer, and
  memory past their ends has no influence on it;
* `Setup.Checked`: the key and IV lists for which the code is sure to be right.

## Main results

* `guarded_iff_checked`: the entry points are guarded exactly where their own checks, or the
  caller, made sure of the lengths.
-/

namespace OpenSSLWasm.Cipher

/-- What an entry point returns when it does not fail. -/
inductive Answer
  | bytes (out : List Byte)
  | aeadSealed (r : AeadSealed)
  | finished (out : List Byte) (tag : Option (List Byte))
  deriving DecidableEq

/-- The arguments besides algorithm, key and IV; each entry point takes the ones it has. -/
structure Arguments where
  padding : PaddingMode
  data : ListU8
  aad : ListU8
  tag : ListU8
  tagLen : BitVec 32
  encryptorCalls : List EncryptorCall
  decryptorCalls : List DecryptorCall

/-- An entry point of the interface with its algorithm, key and IV or nonce. -/
inductive Setup
  | oneShot (doEncrypt : Bool) (alg : Algorithm) (key : ListU8) (iv : Option ListU8)
  | aeadSeal (alg : Algorithm) (key nonce : ListU8)
  | aeadOpen (alg : Algorithm) (key nonce : ListU8)
  | encryptor (alg : Algorithm) (key : ListU8) (iv : Option ListU8)
  | decryptor (alg : Algorithm) (key : ListU8) (iv : Option ListU8)

namespace Setup

def alg : Setup → Algorithm
  | oneShot _ alg _ _ | aeadSeal alg _ _ | aeadOpen alg _ _ | encryptor alg _ _
  | decryptor alg _ _ => alg

def key : Setup → ListU8
  | oneShot _ _ key _ | aeadSeal _ key _ | aeadOpen _ key _ | encryptor _ key _
  | decryptor _ key _ => key

def iv : Setup → Option ListU8
  | oneShot _ _ _ iv | encryptor _ _ iv | decryptor _ _ iv => iv
  | aeadSeal _ _ nonce | aeadOpen _ _ nonce => some nonce

/-- The same lists in other memory: `p` past the end of the key, `q` past that of the IV. -/
def withBeyond (p q : Ptr) : Setup → Setup
  | oneShot doEncrypt alg key iv =>
    oneShot doEncrypt alg (key.withBeyond p) (iv.map (·.withBeyond q))
  | aeadSeal alg key nonce => aeadSeal alg (key.withBeyond p) (nonce.withBeyond q)
  | aeadOpen alg key nonce => aeadOpen alg (key.withBeyond p) (nonce.withBeyond q)
  | encryptor alg key iv => encryptor alg (key.withBeyond p) (iv.map (·.withBeyond q))
  | decryptor alg key iv => decryptor alg (key.withBeyond p) (iv.map (·.withBeyond q))

/-- The results of all calls from this entry point on: one for the one-shot calls, one for each
call of a streaming resource and one for its finish. -/
def answers (E : Evp) (x : Arguments) : Setup → List (Except CipherError Answer)
  | oneShot doEncrypt alg key iv =>
    [(if doEncrypt then encrypt E alg key iv x.padding x.data
      else decrypt E alg key iv x.padding x.data).map .bytes]
  | aeadSeal alg key nonce =>
    [(Cipher.aeadSeal E alg key nonce x.aad x.data x.tagLen).map .aeadSealed]
  | aeadOpen alg key nonce =>
    [(Cipher.aeadOpen E alg key nonce x.aad x.data x.tag).map .bytes]
  | encryptor alg key iv =>
    let t := (constructorEncryptor E alg key iv x.padding).run E x.encryptorCalls
    t.1.map (fun p => p.2.map .bytes) ++ [(t.2.finish E).map fun r => .finished r.1 r.2]
  | decryptor alg key iv =>
    let t := (constructorDecryptor E alg key iv x.padding).run E x.decryptorCalls
    t.1.map (fun p => p.2.map .bytes) ++ [(t.2.finish E).map .bytes]

/-- How many bytes EVP reads at an IV pointer: the IV length of the cipher, unless the entry point
sets the length of its nonce. -/
def ivRead (L : Libcrypto) (c : EvpCipher) : Setup → ℕ
  | oneShot .. | encryptor .. | decryptor .. => L.ivLength c
  | aeadSeal _ _ nonce | aeadOpen _ _ nonce => (cInt nonce.len).toNat

/-- The key has exactly the length of the algorithm's keys and the IV at least the bytes that are
read. -/
structure WellSized (L : Libcrypto) (s : Setup) (c : EvpCipher) : Prop where
  cipher : cipherByAlg L s.alg = some c
  key : s.key.len = L.keyLength c
  iv : ∀ v ∈ s.iv, s.ivRead L c ≤ v.len

/-- An answer is given only to a well sized key and IV, and memory past their ends does not
influence it. -/
def Guarded (L : Libcrypto) (s : Setup) : Prop :=
  ∀ (E : Evp) (A : Aead), E.lib = L → E.Documented A → ∀ x, (∃ a, .ok a ∈ s.answers E x) →
    (∃ c, s.WellSized L c) ∧ ∀ p q, (s.withBeyond p q).answers E x = s.answers E x

/-- The lengths that no check of the code makes sure of are right. -/
def Checked (L : Libcrypto) : Setup → Prop
  -- the key length is checked, the IV length is not
  | oneShot _ alg key iv => ∀ c, cipherByAlg L alg = some c → c.isAead = false →
      key.len = L.keyLength c → ∀ v ∈ iv, L.ivLength c ≤ v.len
  -- the nonce sets the IV length, the key length is not checked
  | aeadSeal alg key nonce | aeadOpen alg key nonce => ∀ c, cipherByAlg L alg = some c →
      c.isAead = true → nonce.len < 2 ^ 31 → L.acceptsIvLen c nonce.len = true →
      key.len = L.keyLength c
  -- nothing is checked
  | encryptor alg key iv | decryptor alg key iv => ∀ c, cipherByAlg L alg = some c →
      key.len = L.keyLength c ∧ ∀ v ∈ iv, L.ivLength c ≤ v.len

end Setup

/-! ## Memory past the end -/

theorem initCall_withBeyond (E : Evp) (ctx : Ctx) (enc : Bool) {c : EvpCipher} {key : ListU8}
    {iv : Option ListU8} (hkey : key.len = E.lib.keyLength c)
    (hiv : ∀ v ∈ iv, E.lib.ivLength c ≤ v.len) (p q : Ptr) :
    E.initCall ctx enc (some c) (some (key.withBeyond p).ptr)
        ((iv.map (·.withBeyond q)).map ListU8.ptr) =
      E.initCall ctx enc (some c) (some key.ptr) (iv.map ListU8.ptr) := by
  rw [Evp.initCall_some, Evp.initCall_some, ListU8.readBytes_withBeyond _ _ (Nat.le_of_eq hkey.symm)]
  congr 1
  cases iv with
  | none => rfl
  | some v => exact congrArg some (ListU8.readBytes_withBeyond v q (hiv v rfl))

theorem oneShot_withBeyond (E : Evp) (doEncrypt : Bool) (alg : Algorithm) {c : EvpCipher}
    {key : ListU8} {iv : Option ListU8} (hc : cipherByAlg E.lib alg = some c)
    (hkey : key.len = E.lib.keyLength c) (hiv : ∀ v ∈ iv, E.lib.ivLength c ≤ v.len)
    (padding : PaddingMode) (inp : ListU8) (p q : Ptr) :
    oneShot E doEncrypt alg (key.withBeyond p) (iv.map (·.withBeyond q)) padding inp =
      oneShot E doEncrypt alg key iv padding inp := by
  have hinit : EvpM.expectInit E doEncrypt (some c) (some (key.withBeyond p).ptr)
        ((iv.map (·.withBeyond q)).map ListU8.ptr) .badKeySize =
      EvpM.expectInit E doEncrypt (some c) (some key.ptr) (iv.map ListU8.ptr) .badKeySize := by
    funext ctx
    rw [EvpM.expectInit, EvpM.expectInit, initCall_withBeyond E ctx doEncrypt hkey hiv]
  simp only [oneShot, hc, oneShotBody, hinit, ListU8.len_withBeyond]

theorem constructorCtx_withBeyond (E : Evp) (enc : Bool) (alg : Algorithm) {c : EvpCipher}
    {key : ListU8} {iv : Option ListU8} (hc : cipherByAlg E.lib alg = some c)
    (hkey : key.len = E.lib.keyLength c) (hiv : ∀ v ∈ iv, E.lib.ivLength c ≤ v.len)
    (padding : PaddingMode) (p q : Ptr) :
    constructorCtx E enc alg (key.withBeyond p) (iv.map (·.withBeyond q)) padding =
      constructorCtx E enc alg key iv padding := by
  simp only [constructorCtx, hc, initCall_withBeyond E _ enc hkey hiv]

/-- The second initialisation of the AEAD calls reads as many bytes of the nonce as it has. -/
theorem initCall_none_withBeyond {E : Evp} {h : History} {c : EvpCipher} {key nonce : ListU8}
    (hc : (E.session h).cipher = some c) (hiv : (E.session h).ivLen = (cInt nonce.len).toNat)
    (hkey : key.len = E.lib.keyLength c) (enc : Bool) (p q : Ptr) :
    E.initCall (some h) enc none (some (key.withBeyond p).ptr) (some (nonce.withBeyond q).ptr) =
      E.initCall (some h) enc none (some key.ptr) (some nonce.ptr) := by
  have hn : (cInt nonce.len).toNat ≤ nonce.len := cInt_toNat_le nonce.len_lt
  rw [Evp.initCall_none hc, Evp.initCall_none hc, hiv,
    ListU8.readBytes_withBeyond _ _ (Nat.le_of_eq hkey.symm),
    ListU8.readBytes_withBeyond _ _ hn]

/-- Where the setup of the AEAD calls succeeds, it comes to the same context whatever lies past
the end of a key of the right length and of the nonce. -/
theorem aeadSetup_bind_withBeyond {E : Evp} {α : Type} {enc : Bool} {c : EvpCipher}
    {key nonce : ListU8} {ccmTag : Option EvpCall} {f : Unit → EvpM α} {r : α} {ctx' : Ctx}
    (htag : ∀ t ∈ ccmTag, ∃ n tag, t = .setTag n tag) (hkey : key.len = E.lib.keyLength c)
    (h : (aeadSetup E enc c key nonce ccmTag >>= f) (some []) = .ok (r, ctx')) (p q : Ptr) :
    (aeadSetup E enc c (key.withBeyond p) (nonce.withBeyond q) ccmTag >>= f) (some []) =
      .ok (r, ctx') := by
  rw [aeadSetup_bind_eq_ok] at h ⊢
  obtain ⟨hinit, hlen, hkeyed, hf⟩ := h
  obtain ⟨t, hs⟩ := session_setupHistory hinit hlen htag
  have heq : E.initCall (some (setupHistory enc c nonce ccmTag)) enc none
        (some (key.withBeyond p).ptr) (some (nonce.withBeyond q).ptr) =
      E.initCall (some (setupHistory enc c nonce ccmTag)) enc none (some key.ptr)
        (some nonce.ptr) :=
    initCall_none_withBeyond (by rw [hs]) (by rw [hs]) hkey enc p q
  refine ⟨hinit, hlen, ?_, ?_⟩
  · rw [← heq] at hkeyed
    exact hkeyed
  · rw [← heq] at hf
    exact hf

theorem aeadSeal_withBeyond {E : Evp} {alg : Algorithm} {c : EvpCipher} {key nonce : ListU8}
    (hc : cipherByAlg E.lib alg = some c) (hkey : key.len = E.lib.keyLength c)
    {aad plaintext : ListU8} {tagLen : BitVec 32} {r : AeadSealed}
    (h : aeadSeal E alg key nonce aad plaintext tagLen = .ok r) (p q : Ptr) :
    aeadSeal E alg (key.withBeyond p) (nonce.withBeyond q) aad plaintext tagLen = .ok r := by
  obtain ⟨c', hc', haead, halloc, ctx', h⟩ := aeadSeal_eq_ok.mp h
  obtain rfl := Option.some.inj (hc.symm.trans hc')
  -- what follows the setup does not mention the key or the nonce
  exact aeadSeal_eq_ok.mpr
    ⟨c, hc, haead, halloc, ctx', aeadSetup_bind_withBeyond (by split <;> simp) hkey h p q⟩

theorem aeadOpen_withBeyond {E : Evp} {alg : Algorithm} {c : EvpCipher} {key nonce : ListU8}
    (hc : cipherByAlg E.lib alg = some c) (hkey : key.len = E.lib.keyLength c)
    {aad ciphertext tag : ListU8} {r : List Byte}
    (h : aeadOpen E alg key nonce aad ciphertext tag = .ok r) (p q : Ptr) :
    aeadOpen E alg (key.withBeyond p) (nonce.withBeyond q) aad ciphertext tag = .ok r := by
  obtain ⟨c', hc', haead, halloc, ctx', h⟩ := aeadOpen_eq_ok.mp h
  obtain rfl := Option.some.inj (hc.symm.trans hc')
  exact aeadOpen_eq_ok.mpr
    ⟨c, hc, haead, halloc, ctx', aeadSetup_bind_withBeyond (by split <;> simp [EvpCall.setTagList])
      hkey h p q⟩

/-- The answers for a well sized key and IV, if there are any, do not depend on memory past their
ends. -/
theorem Setup.WellSized.answers_withBeyond {E : Evp} {s : Setup} {c : EvpCipher}
    (hs : s.WellSized E.lib c) {x : Arguments} (hok : ∃ a, .ok a ∈ s.answers E x) (p q : Ptr) :
    (s.withBeyond p q).answers E x = s.answers E x := by
  obtain ⟨hc, hkey, hiv⟩ := hs
  cases s <;> simp only [Setup.alg, Setup.key, Setup.iv, Setup.ivRead] at hc hkey hiv
  case oneShot doEncrypt alg key iv =>
    -- the calls with one initialisation read key and IV alike, so nothing after that differs
    simp only [answers, withBeyond, encrypt, decrypt, oneShot_withBeyond E _ alg hc hkey hiv]
  case aeadSeal alg key nonce =>
    obtain ⟨a, ha⟩ := hok
    rw [answers, List.mem_singleton] at ha
    cases hr : Cipher.aeadSeal E alg key nonce x.aad x.data x.tagLen with
    | error e =>
      rw [hr] at ha
      cases ha
    | ok r => rw [withBeyond, answers, answers, hr, aeadSeal_withBeyond hc hkey hr]
  case aeadOpen alg key nonce =>
    obtain ⟨a, ha⟩ := hok
    rw [answers, List.mem_singleton] at ha
    cases hr : Cipher.aeadOpen E alg key nonce x.aad x.data x.tag with
    | error e =>
      rw [hr] at ha
      cases ha
    | ok r => rw [withBeyond, answers, answers, hr, aeadOpen_withBeyond hc hkey hr]
  case encryptor alg key iv =>
    simp only [answers, withBeyond, constructorEncryptor,
      constructorCtx_withBeyond E true alg hc hkey hiv]
  case decryptor alg key iv =>
    simp only [answers, withBeyond, constructorDecryptor,
      constructorCtx_withBeyond E false alg hc hkey hiv]

/-! ## Checked lengths are enough -/

/-- A one-shot call succeeds only with a key of the right length: that is checked, though after
the key was read. -/
theorem key_len_of_oneShot_eq_ok {E : Evp} {A : Aead} (hE : E.Documented A) {doEncrypt : Bool}
    {alg : Algorithm} {key : ListU8} {iv : Option ListU8} {padding : PaddingMode} {inp : ListU8}
    {r : List Byte} (h : oneShot E doEncrypt alg key iv padding inp = .ok r) :
    ∃ c, cipherByAlg E.lib alg = some c ∧ c.isAead = false ∧ key.len = E.lib.keyLength c := by
  obtain ⟨c, hc, haead, -, ctx', h⟩ := oneShot_eq_ok.mp h
  rw [oneShotBody, EvpM.expectInit_bind_eq_ok, EvpM.expectKeyLength_bind_eq_ok] at h
  obtain ⟨hinit, hlen, -⟩ := h
  refine ⟨c, hc, by rw [← algIsAead_eq hc, haead], ?_⟩
  have hcipher : (E.session [E.initCall (some []) doEncrypt (some c) (some key.ptr)
      (iv.map ListU8.ptr)]).cipher = some c := by
    rw [Evp.session_cons hinit]
    rfl
  rw [Ctx.push_some, hE.ctxKeyLength hcipher] at hlen
  -- the comparison is one of `int`s, but a negative one is no key length
  have hlt : key.len < 2 ^ 31 := (cInt_nonneg_iff key.len_lt).mp (by omega)
  rw [cInt_of_lt hlt] at hlen
  omega

theorem exists_ok_of_map {α β : Type} {x : Except CipherError α} {f : α → β} {b : β}
    (h : .ok b = x.map f) : ∃ a, x = .ok a := by
  cases x with
  | error e => cases h
  | ok a => exact ⟨a, rfl⟩

/-- Of answers that all are errors, with an error at the end, none is a success. -/
theorem not_exists_ok {ι : Type} {t : List (ι × Except CipherError (List Byte))} {α : Type}
    {last : Except CipherError α} {f : α → Answer} (ht : ∀ p ∈ t, ∀ out, p.2 ≠ .ok out)
    (hlast : ∀ out, last ≠ .ok out) :
    ¬∃ a, (.ok a : Except CipherError Answer) ∈
      t.map (fun p => p.2.map .bytes) ++ [last.map f] := by
  rintro ⟨a, ha⟩
  rcases List.mem_append.mp ha with ha | ha
  · obtain ⟨p, hp, hpa⟩ := List.mem_map.mp ha
    obtain ⟨out, hout⟩ := exists_ok_of_map hpa.symm
    exact ht p hp out hout
  · obtain ⟨out, hout⟩ := exists_ok_of_map (List.mem_singleton.mp ha)
    exact hlast out hout

theorem Setup.Checked.wellSized {E : Evp} {A : Aead} (hE : E.Documented A) {s : Setup}
    (hs : s.Checked E.lib) {x : Arguments} (hok : ∃ a, .ok a ∈ s.answers E x) :
    ∃ c, s.WellSized E.lib c := by
  cases s with
  | oneShot doEncrypt alg key iv =>
    obtain ⟨a, ha⟩ := hok
    obtain ⟨r, hr⟩ := exists_ok_of_map (List.mem_singleton.mp ha)
    have hr : Cipher.oneShot E doEncrypt alg key iv x.padding x.data = .ok r := by
      cases doEncrypt <;> exact hr
    obtain ⟨c, hc, haead, hkey⟩ := key_len_of_oneShot_eq_ok hE hr
    exact ⟨c, hc, hkey, hs c hc haead hkey⟩
  | aeadSeal alg key nonce =>
    obtain ⟨a, ha⟩ := hok
    obtain ⟨r, hr⟩ := exists_ok_of_map (List.mem_singleton.mp ha)
    obtain ⟨c, hc, haead, -, ctx', hr⟩ := aeadSeal_eq_ok.mp hr
    rw [algIsAead_eq hc] at haead
    obtain ⟨hnonce, -⟩ := (aeadSetup_bind_iff hE haead (by split <;> simp)).mp hr
    refine ⟨c, hc, hs c hc haead hnonce.len_lt hnonce.accepts, ?_⟩
    rintro v ⟨rfl⟩
    exact cInt_toNat_le nonce.len_lt
  | aeadOpen alg key nonce =>
    obtain ⟨a, ha⟩ := hok
    obtain ⟨r, hr⟩ := exists_ok_of_map (List.mem_singleton.mp ha)
    obtain ⟨c, hc, haead, -, ctx', hr⟩ := aeadOpen_eq_ok.mp hr
    rw [algIsAead_eq hc] at haead
    obtain ⟨hnonce, -⟩ := (aeadSetup_bind_iff hE haead (by split <;> simp [EvpCall.setTagList])).mp hr
    refine ⟨c, hc, hs c hc haead hnonce.len_lt hnonce.accepts, ?_⟩
    rintro v ⟨rfl⟩
    exact cInt_toNat_le nonce.len_lt
  | encryptor alg key iv =>
    cases hc : cipherByAlg E.lib alg with
    | some c => exact ⟨c, hc, (hs c hc).1, (hs c hc).2⟩
    | none =>
      -- the constructor succeeds, but nothing after it does
      obtain ⟨hcalls, hfinish⟩ := Encryptor.run_idle hE
        (r := constructorEncryptor E alg key iv x.padding)
        (constructorCtx_idle hc true key iv x.padding) x.encryptorCalls
      exact absurd hok (not_exists_ok hcalls hfinish)
  | decryptor alg key iv =>
    cases hc : cipherByAlg E.lib alg with
    | some c => exact ⟨c, hc, (hs c hc).1, (hs c hc).2⟩
    | none =>
      obtain ⟨hcalls, hfinish⟩ := Decryptor.run_idle hE
        (r := constructorDecryptor E alg key iv x.padding)
        (constructorCtx_idle hc false key iv x.padding) x.decryptorCalls
      exact absurd hok (not_exists_ok hcalls hfinish)

/-! ## Other lengths are let through -/

/-- Tags of zeros. -/
def zeroTag : TagFunction := fun _ _ _ _ _ n => List.replicate n 0

/-- The empty list. -/
def blank : ListU8 := ListU8.ofBytes [] (by decide) 0

/-- Arguments with no data, and with sixteen zeros where a tag is wanted. -/
def blankArguments : Arguments where
  padding := .pkcs7
  data := blank
  aad := blank
  tag := zeroTagList
  tagLen := 16
  encryptorCalls := [.update blank]
  decryptorCalls := [.update blank]

section

variable {L : Libcrypto} {c : EvpCipher}

theorem exists_oneShot {alg : Algorithm} (hc : cipherByAlg L alg = some c)
    (haead : c.isAead = false) (doEncrypt : Bool) {key : ListU8} (hkey : key.len = L.keyLength c)
    (iv : Option ListU8) :
    ∃ r, oneShot (referenceEvp L zeroTag) doEncrypt alg key iv .pkcs7 blank = .ok r := by
  let E := referenceEvp L zeroTag
  have hdoc := referenceEvp_documented L zeroTag
  let init := E.initCall (some []) doEncrypt (some c) (some key.ptr) (iv.map ListU8.ptr)
  have hinit : (E.call (some []) init).ret = 1 := Reference.init_ret _ _ _ _ _
  have h1 : (E.session [init]).cipher = some c := by
    rw [Evp.session_cons hinit]
    rfl
  have h2 : (E.session [.setPadding true, init]).cipher = some c := by
    rw [Evp.session_setPadding, h1]
  have hlen : cInt key.len = E.ctxKeyLength (some [init]) := by
    rw [hdoc.ctxKeyLength h1, hkey]
    exact cInt_of_lt (L.keyLength_lt c)
  have hupdate := Reference.update_ret (n := cInt blank.len) h2 true (some []) (by decide)
  have h3 := (Evp.session_of_needsCipher (E := E) [.setPadding true, init]
    (c := .updateList true blank) rfl).1.trans h2
  have hfinal := Reference.final_ret h3 fun h => by
    rw [haead] at h
    cases h
  have hbody : ∃ r ctx', oneShotBody E doEncrypt c key iv .pkcs7 blank (some []) =
      .ok (r, ctx') := by
    simp only [oneShotBody, EvpM.expectInit_bind_eq_ok, EvpM.expectKeyLength_bind_eq_ok,
      EvpM.perform_bind_eq_ok, EvpM.expect_bind_eq_ok, EvpM.pure_eq_ok]
    exact ⟨_, _, hinit, hlen, hupdate, hfinal, rfl, rfl⟩
  obtain ⟨r, hr⟩ := hbody
  exact ⟨r, oneShot_eq_ok.mpr ⟨c, hc, (algIsAead_eq hc).trans haead, rfl, hr⟩⟩

/-- The setup of the AEAD calls goes through for any key, and a nonce of an accepted length. -/
theorem aeadSetup_reference (haead : c.isAead = true) (enc : Bool) (key : ListU8) {nonce : ListU8}
    (hnonce : NonceAccepted L c nonce) {ccmTag : Option EvpCall}
    (htag : ∀ t ∈ ccmTag, ∃ n tag, t = .setTag n tag) {α : Type} {f : Unit → EvpM α}
    (hf : ∀ h, ((referenceEvp L zeroTag).session h).cipher = some c →
      ((referenceEvp L zeroTag).session h).enc = enc →
      ((referenceEvp L zeroTag).session h).key.isSome = true →
      ∃ r ctx', f () (some h) = .ok (r, ctx')) :
    ∃ r ctx', (aeadSetup (referenceEvp L zeroTag) enc c key nonce ccmTag >>= f) (some []) =
      .ok (r, ctx') := by
  have hE := referenceEvp_documented L zeroTag
  obtain ⟨-, t, hs⟩ := session_keyedHistory hE haead enc htag hnonce key
  obtain ⟨r, ctx', hr⟩ := hf _ (by rw [hs]) (by rw [hs]) (by rw [hs]; rfl)
  exact ⟨r, ctx', (aeadSetup_bind_iff hE haead htag).mpr ⟨hnonce, hr⟩⟩

/-- Without data and additional data, nothing but cipher, direction and key matters for how the
AEAD calls go on. -/
theorem aeadUpdate_reference {alg : Algorithm} {h : History} {α : Type} {f : List Byte → EvpM α}
    (hc : ((referenceEvp L zeroTag).session h).cipher = some c)
    (hf : ∀ out h', ((referenceEvp L zeroTag).session h').cipher = some c →
      ((referenceEvp L zeroTag).session h').enc = ((referenceEvp L zeroTag).session h).enc →
      ((referenceEvp L zeroTag).session h').key = ((referenceEvp L zeroTag).session h).key →
      ∃ r ctx', f out (some h') = .ok (r, ctx')) :
    ∃ r ctx', (aeadUpdate (referenceEvp L zeroTag) alg blank blank >>= f) (some h) =
      .ok (r, ctx') := by
  let E := referenceEvp L zeroTag
  have hpersist : ∀ (h : History) (inp : Option (List Byte)) (out : Bool),
      (E.session (.update out inp 0 :: h)).cipher = (E.session h).cipher ∧
        (E.session (.update out inp 0 :: h)).enc = (E.session h).enc ∧
        (E.session (.update out inp 0 :: h)).key = (E.session h).key :=
    fun h inp out => Evp.session_of_needsCipher h rfl
  have hsession : (E.session (aadHistory alg blank blank h)).cipher = some c ∧
      (E.session (aadHistory alg blank blank h)).enc = (E.session h).enc ∧
      (E.session (aadHistory alg blank blank h)).key = (E.session h).key := by
    unfold aadHistory
    -- the additional data is empty, so only CCM makes a call here
    split_ifs with hccm hlen hlen
    · exact absurd rfl hlen
    · obtain ⟨h1, h2, h3⟩ := hpersist h none false
      exact ⟨h1.trans hc, h2, h3⟩
    · exact absurd rfl hlen
    · exact ⟨hc, rfl, rfl⟩
  obtain ⟨h1, h2, h3⟩ := hsession
  obtain ⟨h1', h2', h3'⟩ := hpersist (aadHistory alg blank blank h) (some []) true
  obtain ⟨r, ctx', hr⟩ := hf (E.call (some (aadHistory alg blank blank h))
    (.updateList true blank)).out _ (h1'.trans h1) (h2'.trans h2) (h3'.trans h3)
  exact ⟨r, ctx', aeadUpdate_bind_eq_ok.mpr ⟨fun hlen => absurd rfl hlen,
    Reference.update_ret h1 true (some []) (by decide), hr⟩⟩

theorem exists_aeadSeal {alg : Algorithm} (hc : cipherByAlg L alg = some c)
    (haead : c.isAead = true) (key : ListU8) {nonce : ListU8} (hnonce : NonceAccepted L c nonce) :
    ∃ r, aeadSeal (referenceEvp L zeroTag) alg key nonce blank blank 16 = .ok r := by
  have hbody : ∃ r ctx', sealBody (referenceEvp L zeroTag) alg c key nonce blank blank 16 (some []) =
      .ok (r, ctx') := by
    refine aeadSetup_reference haead true key hnonce (by split <;> simp) fun _ h1 h2 _ =>
      aeadUpdate_reference h1 fun out h h1' h2' _ => ?_
    simp only [EvpM.expect_bind_eq_ok, EvpM.pure_eq_ok]
    have hfinal := Reference.final_ret h1' fun _ _ henc => by
      rw [h2', h2] at henc
      cases henc
    have h3 := (Evp.session_of_needsCipher h (c := .final) rfl).1.trans h1'
    exact ⟨_, _, hfinal, Reference.getTag_ret h3 haead, rfl, rfl⟩
  obtain ⟨r, hr⟩ := hbody
  exact ⟨r, aeadSeal_eq_ok.mpr ⟨c, hc, (algIsAead_eq hc).trans haead, rfl, hr⟩⟩

theorem exists_aeadOpen {alg : Algorithm} (hc : cipherByAlg L alg = some c)
    (haead : c.isAead = true) (key : ListU8) {nonce : ListU8} (hnonce : NonceAccepted L c nonce) :
    ∃ r, aeadOpen (referenceEvp L zeroTag) alg key nonce blank blank zeroTagList = .ok r := by
  let E := referenceEvp L zeroTag
  have hbody : ∃ r ctx', openBody E alg c key nonce blank blank zeroTagList (some []) =
      .ok (r, ctx') := by
    refine aeadSetup_reference haead false key hnonce
      (by split <;> simp [EvpCall.setTagList]) fun _ h1 h2 hkey =>
        aeadUpdate_reference h1 fun out h h1' h2' hkey' => ?_
    by_cases hccm : isCcm alg = true
    · -- CCM: nothing is checked any more
      simp only [hccm, Bool.not_true, Bool.false_eq_true, if_false, EvpM.expect_bind_eq_ok,
        EvpM.pure_eq_ok]
      have hfinal := Reference.final_ret h1' fun _ hfalse _ => by
        rw [← isCcm_eq hc, hccm] at hfalse
        cases hfalse
      exact ⟨_, _, hfinal, rfl, rfl⟩
    · -- the other modes: the tag is the one of these algorithms
      simp only [hccm, Bool.not_false, if_true, EvpM.expect_bind_eq_ok, EvpM.pure_eq_ok]
      have hset : (E.call (some h) (.setTagList zeroTagList)).ret = 1 :=
        Reference.setTag_ret h1' haead _
      have hsession := Evp.session_cons hset
      have hfinal : (E.call (some (.setTagList zeroTagList :: h)) .final).ret = 1 := by
        refine Reference.final_ret (c := c) (by rw [hsession]; exact h1') fun _ _ _ => ?_
        rw [← hkey'] at hkey
        obtain ⟨k, hk⟩ : ∃ k, (E.session h).key = some k := Option.isSome_iff_exists.mp hkey
        rw [hsession]
        simp only [Reference.Verified, EvpCall.setTagList, Session.next, hk]
        rfl
      exact ⟨_, _, hset, hfinal, rfl, rfl⟩
  obtain ⟨r, hr⟩ := hbody
  exact ⟨r, aeadOpen_eq_ok.mpr ⟨c, hc, (algIsAead_eq hc).trans haead, rfl, hr⟩⟩

/-- The streaming resources work on whatever was read as key and IV. -/
theorem exists_update {alg : Algorithm} (hc : cipherByAlg L alg = some c) (enc : Bool)
    (key : ListU8) (iv : Option ListU8) (padding : PaddingMode) :
    ∃ out, (referenceEvp L zeroTag).attempt
      (constructorCtx (referenceEvp L zeroTag) enc alg key iv padding) (.updateList true blank)
      (referenceEvp L zeroTag).internalError = .ok out := by
  let E := referenceEvp L zeroTag
  let init := E.initCall (some []) enc (some c) (some key.ptr) (iv.map ListU8.ptr)
  have hctx : constructorCtx E enc alg key iv padding =
      some [.setPadding (padding = .pkcs7), init] := by
    have hc : cipherByAlg E.lib alg = some c := hc
    rw [constructorCtx, hc]
    rfl
  have hinit : (E.call (some []) init).ret = 1 := Reference.init_ret _ _ _ _ _
  have hcipher : (E.session [.setPadding (padding = .pkcs7), init]).cipher = some c := by
    rw [Evp.session_setPadding, Evp.session_cons hinit]
    rfl
  rw [hctx, Evp.attempt, if_pos]
  · exact ⟨_, rfl⟩
  · exact Reference.update_ret hcipher true _ (by decide)

theorem Setup.Guarded.checked {s : Setup} (hs : s.Guarded L) : s.Checked L := by
  have hok := fun x => hs (referenceEvp L zeroTag) (referenceAead zeroTag) rfl
    (referenceEvp_documented L zeroTag) x
  cases s with
  | oneShot doEncrypt alg key iv =>
    intro c hc haead hkey v hv
    obtain ⟨r, hr⟩ := exists_oneShot hc haead doEncrypt hkey iv
    obtain ⟨⟨c', hc', -, hiv⟩, -⟩ := hok blankArguments ⟨.bytes r, by
      cases doEncrypt <;> exact List.mem_singleton.mpr (congrArg (Except.map Answer.bytes) hr.symm)⟩
    obtain rfl := Option.some.inj (hc.symm.trans hc')
    exact hiv v hv
  | aeadSeal alg key nonce =>
    intro c hc haead hlen haccepts
    obtain ⟨r, hr⟩ := exists_aeadSeal hc haead key ⟨hlen, haccepts⟩
    obtain ⟨⟨c', hc', hkey, -⟩, -⟩ := hok blankArguments ⟨.aeadSealed r,
      List.mem_singleton.mpr (congrArg (Except.map Answer.aeadSealed) hr.symm)⟩
    obtain rfl := Option.some.inj (hc.symm.trans hc')
    exact hkey
  | aeadOpen alg key nonce =>
    intro c hc haead hlen haccepts
    obtain ⟨r, hr⟩ := exists_aeadOpen hc haead key ⟨hlen, haccepts⟩
    obtain ⟨⟨c', hc', hkey, -⟩, -⟩ := hok blankArguments ⟨.bytes r,
      List.mem_singleton.mpr (congrArg (Except.map Answer.bytes) hr.symm)⟩
    obtain rfl := Option.some.inj (hc.symm.trans hc')
    exact hkey
  | encryptor alg key iv =>
    intro c hc
    obtain ⟨r, hr⟩ := exists_update hc true key iv .pkcs7
    obtain ⟨⟨c', hc', hkey, hiv⟩, -⟩ := hok blankArguments ⟨.bytes r,
      List.mem_cons.mpr (Or.inl (congrArg (Except.map Answer.bytes) hr.symm))⟩
    obtain rfl := Option.some.inj (hc.symm.trans hc')
    exact ⟨hkey, hiv⟩
  | decryptor alg key iv =>
    intro c hc
    obtain ⟨r, hr⟩ := exists_update hc false key iv .pkcs7
    obtain ⟨⟨c', hc', hkey, hiv⟩, -⟩ := hok blankArguments ⟨.bytes r,
      List.mem_cons.mpr (Or.inl (congrArg (Except.map Answer.bytes) hr.symm))⟩
    obtain rfl := Option.some.inj (hc.symm.trans hc')
    exact ⟨hkey, hiv⟩

end

/-- The entry points are guarded for exactly the key and IV lists whose lengths their own checks
or the caller made sure of: `encrypt` and `decrypt` need an IV that is long enough, `seal` and
`open` a key of the right length, the streaming resources both. -/
theorem guarded_iff_checked (L : Libcrypto) (s : Setup) : s.Guarded L ↔ s.Checked L := by
  refine ⟨Setup.Guarded.checked, fun hs E A hL hE x hok => ?_⟩
  subst hL
  obtain ⟨c, hc⟩ := hs.wellSized hE hok
  exact ⟨⟨c, hc⟩, hc.answers_withBeyond hok⟩

/-- AES-128-GCM seals under a key of five bytes, reading eleven more past its end. -/
theorem not_guarded_short_key :
    ¬(Setup.aeadSeal .aes128Gcm (ListU8.ofBytes [1, 2, 3, 4, 5] (by decide) 0)
      (ListU8.ofBytes (List.replicate 12 0) (by decide) 0)).Guarded openssl := by
  intro h
  have hkey := h.checked (.aes .k128 .gcm) rfl rfl (by decide) rfl
  exact absurd hkey (by decide)

end OpenSSLWasm.Cipher
