import OpenSSLWasm.Cipher.Evp

/-!
# An EVP layer that behaves as documented

A small implementation of EVP: encryption leaves the data as it is, and the tags are those of any
function. It shows that the documented behaviour can be had, and it is where the runs live that
show what the interface lets through.

## Main definitions

* `openssl`: the lengths of the ciphers as OpenSSL documents them;
* `referenceEvp`: the implementation, over any tag function.

## Main results

* `referenceEvp_documented`: it behaves as documented.
-/

namespace OpenSSLWasm.Cipher

/-- The number of bytes of a key. -/
def KeySize.bytes : KeySize → ℕ
  | .k128 => 16
  | .k192 => 24
  | .k256 => 32

/-- The lengths that OpenSSL documents, with all ciphers built. -/
def openssl : Libcrypto where
  camellia := true
  aria := true
  sm4 := true
  sm4Gcm := true
  keyLength
    | .aes size .xts => 2 * size.bytes
    | .aes size _ | .camelliaCbc size | .ariaGcm size => size.bytes
    | .chacha20 | .chacha20Poly1305 => 32
    | .sm4Cbc | .sm4Gcm | .rc4 => 16
    | .desEde3Cbc => 24
  ivLength
    | .aes _ .ecb | .rc4 => 0
    | .aes _ .gcm | .aes _ .ccm | .aes _ .ocb | .chacha20Poly1305 | .ariaGcm _ | .sm4Gcm => 12
    | .aes _ _ | .chacha20 | .camelliaCbc _ | .sm4Cbc => 16
    | .desEde3Cbc => 8
  blockSize
    | .aes _ .ecb | .aes _ .cbc | .camelliaCbc _ | .sm4Cbc => 16
    | .desEde3Cbc => 8
    | _ => 1
  acceptsIvLen c n :=
    match c with
    | .aes _ .gcm | .ariaGcm _ | .sm4Gcm => decide (1 ≤ n)
    | .aes _ .ccm => decide (7 ≤ n ∧ n ≤ 13)
    | .aes _ .ocb => decide (1 ≤ n ∧ n ≤ 15)
    | .chacha20Poly1305 => decide (1 ≤ n ∧ n ≤ 12)
    | _ => false
  acceptsTagLen c n :=
    match c with
    | .aes _ .gcm | .ariaGcm _ | .sm4Gcm | .chacha20Poly1305 => decide (1 ≤ n ∧ n ≤ 16)
    | .aes _ .ccm => decide (4 ≤ n ∧ n ≤ 16 ∧ n % 2 = 0)
    | .aes _ .ocb => decide (n = 16)
    | _ => false
  keyLength_lt c := by
    cases c with
    | aes size mode => cases size <;> cases mode <;> decide
    | camelliaCbc size | ariaGcm size => cases size <;> decide
    | _ => decide
  ivLength_lt c := by
    cases c with
    | aes size mode => cases size <;> cases mode <;> decide
    | camelliaCbc size | ariaGcm size => cases size <;> decide
    | _ => decide
  acceptsTagLen_16 c hc := by
    cases c with
    | aes size mode => cases mode <;> first | rfl | exact hc
    | _ => first | rfl | exact hc

/-- A function that computes authentication tags. -/
abbrev TagFunction :=
  EvpCipher → List Byte → Option (List Byte) → List Byte → List Byte → ℕ → List Byte

/-- A tag of sixteen zeros. -/
def zeroTagList : ListU8 := ListU8.ofBytes (List.replicate 16 0) (by decide) 0

/-- AEAD algorithms that leave the data as it is. -/
def referenceAead (authTag : TagFunction) : Aead where
  encrypt _ _ _ _ data := data
  decrypt _ _ _ _ data := data
  authTag := authTag

namespace Reference

variable (L : Libcrypto) (authTag : TagFunction)

/-- Return 1 if a condition holds, and 0 otherwise. -/
def accept (p : Prop) [Decidable p] (out : List Byte) : Response :=
  if p then ⟨1, out⟩ else ⟨0, []⟩

/-- The tag set in a session is the right one. -/
def Verified (s : Session) (c : EvpCipher) : Prop :=
  match s.key, s.tag with
  | some key, some tag => tag = authTag c key s.iv s.aad s.data tag.length
  | _, _ => False

instance (s : Session) (c : EvpCipher) : Decidable (Verified authTag s c) := by
  unfold Verified
  split <;> infer_instance

/-- Final succeeds: there is a cipher, and the tag is right if it is checked here. -/
def FinalOk (s : Session) : Prop :=
  match s.cipher with
  | none => False
  | some c => c.isAead = true → c.isCcm = false → s.enc = false → Verified authTag s c

instance (s : Session) : Decidable (FinalOk authTag s) := by
  unfold FinalOk
  split <;> infer_instance

/-- The answer to a call, from what the context was told before. -/
def respond (s : Session) : EvpCall → Response
  | .init _ cipher _ _ => accept ((cipher <|> s.cipher).isSome = true) []
  | .setPadding _ => accept True []
  | .setIvLen n =>
    accept (0 ≤ n ∧ (s.cipher.any fun c => L.acceptsIvLen c n.toNat) = true) []
  | .setTag n _ =>
    accept (0 ≤ n ∧ (s.cipher.any fun c => L.acceptsTagLen c n.toNat) = true) []
  | .getTag n =>
    accept (0 ≤ n ∧ (s.cipher.any fun c => L.acceptsTagLen c n.toNat) = true)
      (match s.cipher, s.key with
        | some c, some key => authTag c key s.iv s.aad s.data n.toNat
        | _, _ => [])
  | .update out inp n =>
    accept (0 ≤ n ∧ s.cipher.isSome = true) (if out then inp.getD [] else [])
  | .final => accept (FinalOk authTag s) []

/-- The session that a history leads to. -/
def session : History → Session
  | [] => {}
  | c :: h =>
    if (respond L authTag (session h) c).ret = 1 then (session h).next L c else session h

end Reference

/-- An EVP layer that keeps what it is told, and answers from that. -/
def referenceEvp (L : Libcrypto) (authTag : TagFunction) : Evp where
  lib := L
  alloc := true
  call
    | none, _ => ⟨0, []⟩
    | some h, c => Reference.respond L authTag (Reference.session L authTag h) c
  ctxKeyLength ctx :=
    match ctx.map (fun h => (Reference.session L authTag h).cipher) with
    | some (some c) => L.keyLength c
    | _ => 0
  peekLastError _ := 0

namespace Reference

variable {L : Libcrypto} {authTag : TagFunction}

@[simp] theorem accept_ret (p : Prop) [Decidable p] (out : List Byte) :
    (accept p out).ret = 1 ↔ p := by
  unfold accept
  split <;> simp [*]

theorem accept_ret_eq (p : Prop) [Decidable p] (out : List Byte) :
    (accept p out).ret = 0 ∨ (accept p out).ret = 1 := by
  unfold accept
  split
  · exact Or.inr rfl
  · exact Or.inl rfl

theorem accept_out {p : Prop} [Decidable p] {out : List Byte} (h : p) :
    (accept p out).out = out := by
  rw [accept, if_pos h]

/-- The implementation's own record is the session of its contexts. -/
theorem session_eq (h : History) :
    (referenceEvp L authTag).session h = session L authTag h := by
  induction h with
  | nil => rfl
  | cons c h ih =>
    rw [Evp.session, ih]
    rfl

theorem call_eq (h : History) (c : EvpCall) :
    (referenceEvp L authTag).call (some h) c =
      respond L authTag ((referenceEvp L authTag).session h) c := by
  rw [session_eq]
  rfl

theorem init_ret (h : History) (enc : Bool) (c : EvpCipher) (key iv : Option (List Byte)) :
    ((referenceEvp L authTag).call (some h) (.init enc (some c) key iv)).ret = 1 := by
  rw [call_eq, respond, accept_ret]
  rfl

theorem update_ret {h : History} {c : EvpCipher}
    (hc : ((referenceEvp L authTag).session h).cipher = some c) (out : Bool)
    (inp : Option (List Byte)) {n : ℤ} (hn : 0 ≤ n) :
    ((referenceEvp L authTag).call (some h) (.update out inp n)).ret = 1 := by
  rw [call_eq, respond, accept_ret, hc]
  exact ⟨hn, rfl⟩

theorem setTag_ret {h : History} {c : EvpCipher}
    (hc : ((referenceEvp L authTag).session h).cipher = some c) (hcAead : c.isAead = true)
    (tag : Option (List Byte)) :
    ((referenceEvp L authTag).call (some h) (.setTag 16 tag)).ret = 1 := by
  rw [call_eq, respond, accept_ret, hc]
  exact ⟨by decide, L.acceptsTagLen_16 c hcAead⟩

theorem getTag_ret {h : History} {c : EvpCipher}
    (hc : ((referenceEvp L authTag).session h).cipher = some c) (hcAead : c.isAead = true) :
    ((referenceEvp L authTag).call (some h) (.getTag 16)).ret = 1 := by
  rw [call_eq, respond, accept_ret, hc]
  exact ⟨by decide, L.acceptsTagLen_16 c hcAead⟩

theorem final_ret {h : History} {c : EvpCipher}
    (hc : ((referenceEvp L authTag).session h).cipher = some c)
    (hv : c.isAead = true → c.isCcm = false → ((referenceEvp L authTag).session h).enc = false →
      Verified authTag ((referenceEvp L authTag).session h) c) :
    ((referenceEvp L authTag).call (some h) .final).ret = 1 := by
  rw [call_eq, respond, accept_ret, FinalOk, hc]
  exact hv

/-- The calls that CCM mode answers in its own way. -/
def ccmDiffers : EvpCall → Bool
  | .update .. | .getTag _ => true
  | _ => false

/-- An EVP layer that answers as this one does, from the session of the context. In CCM mode it may
have conditions of its own for updates and for the tag. -/
structure Follows (E : Evp) (L : Libcrypto) (authTag : TagFunction) : Prop where
  lib : E.lib = L
  ctxKeyLength : ∀ {h c}, (E.session h).cipher = some c →
    E.ctxKeyLength (some h) = L.keyLength c
  call_null : ∀ d, (E.call none d).ret = 0
  call : ∀ {h d},
    ((∀ c, (E.session h).cipher = some c → c.isCcm = false) ∨ ccmDiffers d = false) →
      E.call (some h) d = respond L authTag (E.session h) d
  update : ∀ {h out inp n}, (E.call (some h) (.update out inp n)).ret = 1 →
    0 ≤ n ∧ (E.call (some h) (.update out inp n)).out = if out then inp.getD [] else []

theorem follows_referenceEvp (L : Libcrypto) (authTag : TagFunction) :
    Follows (referenceEvp L authTag) L authTag where
  lib := rfl
  ctxKeyLength {h c} hc := by
    rw [session_eq] at hc
    simp [referenceEvp, hc]
  call_null _ := rfl
  call {h d} _ := call_eq h d
  update {h out inp n} hret := by
    rw [call_eq] at hret ⊢
    have hp := (accept_ret _ _).mp hret
    exact ⟨hp.1, accept_out hp⟩

namespace Follows

variable {E : Evp} (hE : Follows E L authTag) {h : History} {c : EvpCipher}
include hE

theorem call_of_checksInFinal (hc : (E.session h).ChecksInFinal c) (d : EvpCall) :
    E.call (some h) d = respond L authTag (E.session h) d := by
  refine hE.call (.inl fun c' hc' => ?_)
  obtain rfl := Option.some.inj (hc.cipher.symm.trans hc')
  exact hc.isCcm

theorem call_final (h : History) :
    E.call (some h) .final = respond L authTag (E.session h) .final :=
  hE.call (.inr rfl)

/-- The output is the data, however it came. -/
theorem output_eq (h : History) : E.output h = (E.session h).data := by
  induction h with
  | nil => rfl
  | cons d h ih =>
    by_cases hret : (E.call (some h) d).ret = 1
    · rw [Evp.output_cons hret, Evp.session_cons hret]
      cases d with
      | init enc cipher key iv =>
        cases cipher with
        | none => exact ih
        | some c => rfl
      | setPadding pad => exact ih
      | setIvLen n => exact ih
      | setTag n tag => exact ih
      | getTag n => exact ih
      | update out inp n =>
        cases out with
        | false => cases inp <;> exact ih
        | true =>
          -- data comes out as it went in
          rw [EvpCall.collect, (hE.update hret).2, ih]
          rfl
      | final =>
        -- nothing is held back for Final
        rw [hE.call_final] at hret ⊢
        rw [EvpCall.collect, respond, accept_out ((accept_ret _ _).mp hret), ih, List.append_nil]
        rfl
    · rw [Evp.output_cons_of_ne hret, Evp.session_cons_of_ne hret, ih]

/-- Such a layer behaves as documented. -/
theorem documented : E.Documented (referenceAead authTag) where
  ctxKeyLength {h c} hc := by
    rw [hE.lib]
    exact hE.ctxKeyLength hc
  call_null := hE.call_null
  call_noCipher {h c} hs hc := by
    rw [hE.call (.inl fun c' hc' => by rw [hs] at hc'; cases hc')]
    cases c <;> simp_all [respond, accept, FinalOk, EvpCall.needsCipher]
  ret_final ctx := by
    cases ctx with
    | none => exact Or.inl (hE.call_null _)
    | some h =>
      rw [hE.call_final]
      exact accept_ret_eq _ _
  init {h c enc cipher key iv} hc _ := by
    rw [hE.call (.inr rfl)]
    refine (accept_ret _ _).mpr ?_
    rw [hc]
    rfl
  setIvLen {h c n} hc _ := by
    rw [hE.call (.inr rfl), respond, accept_ret, hc, hE.lib]
    rfl
  setTag {h c n tag} hc _ := by
    rw [hE.call (.inr rfl), respond, accept_ret, hc.cipher, hE.lib]
    rfl
  getTag {h c n} hc _ _ := by
    rw [hE.call_of_checksInFinal hc, respond, accept_ret, hc.cipher, hE.lib]
    rfl
  getTag_out {h c key n} hc _ _ _ hkey hret := by
    rw [hE.call_of_checksInFinal hc] at hret ⊢
    rw [respond, accept_out ((accept_ret _ _).mp hret), hc.cipher, hkey]
    rfl
  update {h c out inp n} hc _ _ _ _ hn := by
    rw [hE.call_of_checksInFinal hc]
    refine (accept_ret _ _).mpr ⟨hn, ?_⟩
    rw [hc.cipher]
    rfl
  update_neg {h out inp n} hn hret := by
    have hnonneg := (hE.update hret).1
    omega
  final_encrypt {h c} hc henc _ _ _ := by
    rw [hE.call_final, respond, accept_ret, FinalOk, hc.cipher]
    simp [henc]
  final_encrypt_out {h c key} _ _ _ _ _ hret := by
    rw [hE.output_eq, Evp.session_cons hret]
    rfl
  final_decrypt {h c} hc henc _ _ hret := by
    -- Final asks for exactly the tag that the law speaks of
    rw [hE.call_final, respond, accept_ret, FinalOk, hc.cipher] at hret
    have hv := hret hc.isAead hc.isCcm henc
    unfold Verified at hv
    split at hv
    · exact ⟨_, _, ‹_›, ‹_›, hv⟩
    · exact hv.elim
  final_decrypt_ret {h c key tag} hc _ _ _ hkey _ htag heq := by
    rw [hE.call_final, respond, accept_ret, FinalOk, hc.cipher]
    intro _ _ _
    rw [Verified, hkey, htag]
    exact heq
  final_decrypt_out {h c key} _ _ _ _ _ hret := by
    rw [hE.output_eq, Evp.session_cons hret]
    rfl
  final_ccm {h c} hc hccm _ _ := by
    rw [hE.call_final, respond, accept_ret, FinalOk, hc]
    simp [hccm]

end Follows

end Reference

/-- The implementation behaves as documented. -/
theorem referenceEvp_documented (L : Libcrypto) (authTag : TagFunction) :
    (referenceEvp L authTag).Documented (referenceAead authTag) :=
  (Reference.follows_referenceEvp L authTag).documented

end OpenSSLWasm.Cipher
