import OpenSSLWasm.Cipher.Ccm
import OpenSSLWasm.Cipher.Reference

/-!
# Opening what was sealed

`seal` and `open` make different calls for the modes: CCM is told the length of the tag before the
key, and the tag itself before the ciphertext, the other modes only at the end. All the same, `open`
gives back what was sealed.

## Main definitions

* `Aead.Ideal`: what is asked of the AEAD algorithms;
* `ccmReferenceEvp`: an implementation of EVP with a CCM mode.

## Main results

* `aeadOpen_aeadSeal`: the round trip, with the lengths of ciphertext and tag;
* `documentedCcm_ccmReferenceEvp`: that implementation is as documented.
-/

namespace OpenSSLWasm.Cipher

/-- Decryption inverts encryption, encryption keeps the length, and a tag has the length that was
asked for. -/
structure Aead.Ideal (A : Aead) (L : Libcrypto) : Prop where
  decrypt_encrypt : ∀ c key iv aad data,
    A.decrypt c key iv aad (A.encrypt c key iv aad data) = data
  length_encrypt : ∀ c key iv aad data, (A.encrypt c key iv aad data).length = data.length
  length_authTag : ∀ {c n}, L.acceptsTagLen c n = true → ∀ key iv aad data,
    (A.authTag c key iv aad data n).length = n

section

variable {E : Evp} {A : Aead} {R : CcmRules} {alg : Algorithm} {key nonce aad : ListU8}

/-- What a successful `seal` computes, in all modes. -/
theorem eq_of_aeadSeal (hE : E.Documented A) (hC : E.DocumentedCcm A R) {plaintext : ListU8}
    {tagLen : BitVec 32} {r : AeadSealed}
    (hseal : aeadSeal E alg key nonce aad plaintext tagLen = .ok r) :
    ∃ c, cipherByAlg E.lib alg = some c ∧ c.isAead = true ∧
      E.alloc = true ∧ NonceAccepted E.lib c nonce ∧ aad.len < 2 ^ 31 ∧ plaintext.len < 2 ^ 31 ∧
      (c.isCcm = true → R.fits c nonce.len plaintext.len = true) ∧
      (0 ≤ cInt tagLen.toNat ∧ E.lib.acceptsTagLen c (cInt tagLen.toNat).toNat = true) ∧
      let k := readBytes key.ptr (E.lib.keyLength c)
      let ct := A.encrypt c k (some nonce.bytes) aad.bytes plaintext.bytes
      r = { ciphertext := ct
            tag := A.authTag c k (some nonce.bytes) aad.bytes ct (cInt tagLen.toNat).toNat } := by
  obtain ⟨c, hc, halgAead, -⟩ := aeadSeal_eq_ok.mp hseal
  have haead : c.isAead = true := (algIsAead_eq hc).symm.trans halgAead
  refine ⟨c, hc, haead, ?_⟩
  rcases hccm : c.isCcm with _ | _
  · obtain ⟨halloc, hnonce, haad, hlen, hr⟩ := (aeadSeal_eq_ok_iff hE hc haead hccm).mp hseal
    exact ⟨halloc, hnonce, haad, hlen, fun h => absurd h (by decide), hr⟩
  · obtain ⟨halloc, hnonce, haad, hlen, hfits, hr⟩ := ccm_of_aeadSeal hE hC hc hccm hseal
    exact ⟨halloc, hnonce, haad, hlen, fun _ => hfits, hr⟩

/-- `open` decrypts what has the right tag, in all modes. -/
theorem aeadOpen_of_tag (hE : E.Documented A) (hC : E.DocumentedCcm A R) {c : EvpCipher}
    (hc : cipherByAlg E.lib alg = some c) (haead : c.isAead = true) (halloc : E.alloc = true)
    (hnonce : NonceAccepted E.lib c nonce) (haad : aad.len < 2 ^ 31) {ciphertext tag : ListU8}
    (hlen : ciphertext.len < 2 ^ 31)
    (hfits : c.isCcm = true → R.fits c nonce.len ciphertext.len = true)
    (htagLen : tag.len < 2 ^ 31) (hacc : E.lib.acceptsTagLen c tag.len = true)
    (htag : tag.bytes = A.authTag c (readBytes key.ptr (E.lib.keyLength c)) (some nonce.bytes)
      aad.bytes ciphertext.bytes tag.len) :
    aeadOpen E alg key nonce aad ciphertext tag =
      .ok (A.decrypt c (readBytes key.ptr (E.lib.keyLength c)) (some nonce.bytes) aad.bytes
        ciphertext.bytes) := by
  rcases hccm : c.isCcm with _ | _
  · exact (aeadOpen_eq_ok_iff hE hc haead hccm).mpr
      ⟨halloc, hnonce, haad, hlen, ⟨htagLen, hacc⟩, htag, rfl⟩
  · exact aeadOpen_ccm hE hC hc hccm halloc hnonce haad hlen (hfits hccm) htagLen hacc htag

/-- A ciphertext has the length of the plaintext, a tag the length that was asked for, and `open`
gives back what was sealed, wherever the lists are in memory. -/
theorem aeadOpen_aeadSeal (hE : E.Documented A) (hC : E.DocumentedCcm A R) (hA : A.Ideal E.lib)
    (hkey : ∀ c, cipherByAlg E.lib alg = some c → key.len = E.lib.keyLength c)
    {plaintext : ListU8} {tagLen : BitVec 32} {r : AeadSealed}
    (hseal : aeadSeal E alg key nonce aad plaintext tagLen = .ok r) :
    r.tag.length = tagLen.toNat ∧ r.ciphertext.length = plaintext.len ∧
      ∀ key' nonce' aad' ciphertext tag : ListU8, key'.bytes = key.bytes →
        nonce'.bytes = nonce.bytes → aad'.bytes = aad.bytes → ciphertext.bytes = r.ciphertext →
        tag.bytes = r.tag →
          aeadOpen E alg key' nonce' aad' ciphertext tag = .ok plaintext.bytes := by
  obtain ⟨c, hc, haead, halloc, hnonce, haad, hlen, hfits, hacc, rfl⟩ :=
    eq_of_aeadSeal hE hC hseal
  have hlt : tagLen.toNat < 2 ^ 31 := (cInt_nonneg_iff tagLen.isLt).mp hacc.1
  have hn : (cInt tagLen.toNat).toNat = tagLen.toNat := cInt_toNat_of_lt hlt
  rw [hn] at hacc ⊢
  have hread : readBytes key.ptr (E.lib.keyLength c) = key.bytes :=
    ListU8.readBytes_eq_bytes (hkey c hc)
  rw [hread]
  have hct := hA.length_encrypt c key.bytes (some nonce.bytes) aad.bytes plaintext.bytes
  rw [ListU8.length_bytes] at hct
  have htagLen := hA.length_authTag hacc.2 key.bytes (some nonce.bytes) aad.bytes
    (A.encrypt c key.bytes (some nonce.bytes) aad.bytes plaintext.bytes)
  refine ⟨htagLen, hct, fun key' nonce' aad' ciphertext tag hk hn' ha hc' ht => ?_⟩
  -- lists with the same bytes have the same length
  have hlenOf : ∀ {l : ListU8} {bs : List Byte}, l.bytes = bs → l.len = bs.length := by
    intro l bs h
    rw [← h, ListU8.length_bytes]
  have hk' := hlenOf hk
  have hnonce' := hlenOf hn'
  have haad' := hlenOf ha
  have hct' := (hlenOf hc').trans hct
  have htag' := (hlenOf ht).trans htagLen
  rw [ListU8.length_bytes] at hk' hnonce' haad'
  have hread' : readBytes key'.ptr (E.lib.keyLength c) = key.bytes := by
    rw [ListU8.readBytes_eq_bytes (hk'.trans (hkey c hc)), hk]
  rw [aeadOpen_of_tag hE hC hc haead halloc ⟨hnonce' ▸ hnonce.len_lt, hnonce' ▸ hnonce.accepts⟩
    (haad' ▸ haad) (by omega) (fun h => by rw [hnonce', hct']; exact hfits h) (by omega)
    (htag' ▸ hacc.2) (by rw [hread', hn', ha, hc', ht, htag']), hread', hn', ha, hc',
    hA.decrypt_encrypt]

end

/-! ## An implementation with a CCM mode -/

namespace Reference

variable (L : Libcrypto) (R : CcmRules) (authTag : TagFunction)

/-- The tag of the whole data is the one that was set, in the length that was set. -/
def CcmVerified (s : CcmState) (c : EvpCipher) (data : List Byte) : Prop :=
  match s.session.key, s.session.tag with
  | some key, some tag => tag = authTag c key s.session.iv s.session.aad data s.tagLen
  | _, _ => False

instance (s : CcmState) (c : EvpCipher) (data : List Byte) :
    Decidable (CcmVerified authTag s c data) := by
  unfold CcmVerified
  split <;> infer_instance

/-- The answers of CCM mode. -/
def respondCcm (s : CcmState) (c : EvpCipher) : EvpCall → Response
  -- the total length, and the additional data that needs it
  | .update false none n => accept (0 ≤ n) []
  | .update false (some inp) n => accept (0 ≤ n ∧ (inp = [] ∨ s.announced.isSome = true)) []
  -- decryption checks the tag before it gives anything out
  | .update true inp n =>
    accept (0 ≤ n ∧ R.fits c s.session.ivLen (inp.getD []).length = true ∧
      (s.session.enc = false → s.announced = some (inp.getD []).length ∧
        CcmVerified authTag s c (inp.getD []))) (inp.getD [])
  | .getTag n =>
    accept (n = s.tagLen)
      (match s.session.key with
        | some key => authTag c key s.session.iv s.session.aad s.session.data s.tagLen
        | none => [])
  | d => respond L authTag s.session d

/-- The answer to a call, from what the context was told before. -/
def answer (s : CcmState) (d : EvpCall) : Response :=
  match s.session.cipher with
  | some c => if c.isCcm then respondCcm L R authTag s c d else respond L authTag s.session d
  | none => respond L authTag s.session d

/-- The state that a history leads to. -/
def ccmState : History → CcmState
  | [] => {}
  | d :: h =>
    if (answer L R authTag (ccmState h) d).ret = 1 then (ccmState h).next L R d else ccmState h

end Reference

/-- An EVP layer that keeps what it is told, and answers from that. -/
def ccmReferenceEvp (L : Libcrypto) (R : CcmRules) (authTag : TagFunction) : Evp where
  lib := L
  alloc := true
  call
    | none, _ => ⟨0, []⟩
    | some h, d => Reference.answer L R authTag (Reference.ccmState L R authTag h) d
  ctxKeyLength ctx :=
    match ctx.map (fun h => (Reference.ccmState L R authTag h).session.cipher) with
    | some (some c) => L.keyLength c
    | _ => 0
  peekLastError _ := 0

namespace Reference

variable {L : Libcrypto} {R : CcmRules} {authTag : TagFunction}

/-- The implementation's own record is the state of its contexts. -/
theorem ccmState_eq (h : History) :
    (ccmReferenceEvp L R authTag).ccmState R h = ccmState L R authTag h := by
  induction h with
  | nil => rfl
  | cons d h ih =>
    rw [Evp.ccmState, ih]
    rfl

theorem ccmCall_eq (h : History) (d : EvpCall) :
    (ccmReferenceEvp L R authTag).call (some h) d =
      answer L R authTag ((ccmReferenceEvp L R authTag).ccmState R h) d := by
  rw [ccmState_eq]
  rfl

theorem answer_of_runs {s : CcmState} {c : EvpCipher} (hs : s.Runs c) (d : EvpCall) :
    answer L R authTag s d = respondCcm L R authTag s c d := by
  rw [answer, hs.cipher]
  exact if_pos hs.isCcm

theorem respondCcm_of_ccmDiffers (s : CcmState) (c : EvpCipher) {d : EvpCall}
    (hd : ccmDiffers d = false) :
    respondCcm L R authTag s c d = respond L authTag s.session d := by
  cases d with
  | update out inp n => cases hd
  | getTag n => cases hd
  | init enc cipher key iv => rfl
  | setPadding pad => rfl
  | setIvLen n => rfl
  | setTag n tag => rfl
  | final => rfl

/-- Updates are accepted only with a length, and then the data comes out as it went in. -/
theorem answer_update {s : CcmState} {out : Bool} {inp : Option (List Byte)} {n : ℤ}
    (hret : (answer L R authTag s (.update out inp n)).ret = 1) :
    0 ≤ n ∧ (answer L R authTag s (.update out inp n)).out = if out then inp.getD [] else [] := by
  have hrespond : ∀ {s : Session}, (respond L authTag s (.update out inp n)).ret = 1 →
      0 ≤ n ∧ (respond L authTag s (.update out inp n)).out =
        if out then inp.getD [] else [] := by
    intro s hret
    have hp := (accept_ret _ _).mp hret
    exact ⟨hp.1, accept_out hp⟩
  unfold answer at hret ⊢
  split at hret
  · split at hret
    · -- in CCM mode, by what the update is for
      rw [if_pos ‹_›]
      rcases out with _ | _
      · rcases inp with _ | inp
        · have hp := (accept_ret _ _).mp hret
          exact ⟨hp, accept_out hp⟩
        · have hp := (accept_ret _ _).mp hret
          exact ⟨hp.1, accept_out hp⟩
      · have hp := (accept_ret _ _).mp hret
        exact ⟨hp.1, accept_out hp⟩
    · rw [if_neg ‹_›]
      exact hrespond hret
  · exact hrespond hret

theorem follows_ccmReferenceEvp (L : Libcrypto) (R : CcmRules) (authTag : TagFunction) :
    Follows (ccmReferenceEvp L R authTag) L authTag where
  lib := rfl
  ctxKeyLength {h c} hc := by
    rw [← Evp.session_eq_of_ccmState (R := R), ccmState_eq] at hc
    simp [ccmReferenceEvp, hc]
  call_null _ := rfl
  call {h d} hd := by
    rw [← Evp.session_eq_of_ccmState (R := R)] at hd ⊢
    rw [ccmCall_eq, answer]
    split
    · split_ifs with hccm
      · -- a call on which CCM does not differ
        refine respondCcm_of_ccmDiffers _ _ (hd.resolve_left fun h => ?_)
        exact absurd ((h _ ‹_›).symm.trans hccm) (by decide)
      · rfl
    · rfl
  update {h out inp n} hret := by
    rw [ccmCall_eq] at hret ⊢
    exact answer_update hret

theorem documentedCcm_ccmReferenceEvp
    (hdefault : ∀ {c : EvpCipher}, c.isCcm = true → L.acceptsTagLen c (R.defaultTagLen c) = true) :
    (ccmReferenceEvp L R authTag).DocumentedCcm (referenceAead authTag) R where
  acceptsTagLen_default := hdefault
  setTag {h s c n tag} hs hruns _ _ := by
    rw [ccmCall_eq, hs.state, answer_of_runs hruns]
    refine (accept_ret _ _).trans ?_
    rw [hruns.cipher]
    rfl
  announce {h s c n} hs hruns _ hn _ := by
    rw [ccmCall_eq, hs.state, answer_of_runs hruns]
    exact (accept_ret _ _).mpr hn
  updateAad {h s c inp n} hs hruns htakes hn := by
    rw [ccmCall_eq, hs.state, answer_of_runs hruns]
    exact (accept_ret _ _).mpr ⟨hn, .inr htakes.1⟩
  announced_of_updateAad {h s c inp n} hs hruns hret hne := by
    rw [ccmCall_eq, hs.state, answer_of_runs hruns] at hret
    exact ((accept_ret _ _).mp hret).2.resolve_left hne
  encrypt {h s c key inp} hs hruns _ _ _ hret := by
    rw [ccmCall_eq, hs.state, answer_of_runs hruns] at hret ⊢
    have hp := (accept_ret _ _).mp hret
    exact ⟨hp.2.1, accept_out hp⟩
  decrypt {h s c key tag inp} hs hruns _ _ hkey hannounced hfits htag heq := by
    rw [ccmCall_eq, hs.state, answer_of_runs hruns]
    have hp : 0 ≤ (inp.length : ℤ) ∧ R.fits c s.session.ivLen inp.length = true ∧
        (s.session.enc = false → s.announced = some inp.length ∧
          CcmVerified authTag s c inp) := by
      refine ⟨Int.natCast_nonneg _, hfits, fun _ => ⟨hannounced, ?_⟩⟩
      rw [CcmVerified, hkey, htag]
      exact heq
    exact ⟨(accept_ret _ _).mpr hp, accept_out hp⟩
  final_out {h s c} hs hruns _ hret := by
    rw [ccmCall_eq, hs.state, answer_of_runs hruns] at hret ⊢
    exact accept_out ((accept_ret _ _).mp hret)
  getTag {h s c key n} hs hruns _ _ hkey hret := by
    rw [ccmCall_eq, hs.state, answer_of_runs hruns] at hret ⊢
    have hp := (accept_ret _ _).mp hret
    refine ⟨hp, (accept_out hp).trans ?_⟩
    rw [hkey]
    rfl

end Reference

/-- The lengths that OpenSSL documents for CCM: what the nonce leaves of fifteen bytes says how long
the data is. -/
def opensslCcm : CcmRules where
  defaultTagLen _ := 12
  fits _ ivLen n := decide (n < 2 ^ (8 * (15 - ivLen)))

/-- Tags that begin with additional data and ciphertext. -/
def prefixTag : TagFunction := fun _ _ _ aad data n => (aad ++ data ++ List.replicate n 0).take n

theorem referenceAead_ideal (L : Libcrypto) : (referenceAead prefixTag).Ideal L where
  decrypt_encrypt _ _ _ _ _ := rfl
  length_encrypt _ _ _ _ _ := rfl
  length_authTag {c n} _ key iv aad data := by
    show ((aad ++ data ++ List.replicate n 0).take n).length = n
    rw [List.length_take, List.length_append, List.length_replicate]
    omega

theorem opensslCcm_default {c : EvpCipher} (hccm : c.isCcm = true) :
    openssl.acceptsTagLen c (opensslCcm.defaultTagLen c) = true := by
  rcases c with ⟨size, mode⟩ | _ | _ | _ | _ | _ | _ | _ | _
  case aes =>
    show openssl.acceptsTagLen (.aes size mode) 12 = true
    cases mode <;> first | rfl | cases hccm
  all_goals cases hccm

/-- AES-128-CCM with a nonce of thirteen bytes and a tag of eight. -/
theorem aeadOpen_aeadSeal_aes128Ccm :
    let E := ccmReferenceEvp openssl opensslCcm prefixTag
    let key := ListU8.ofBytes (List.replicate 16 7) (by decide) 0
    let nonce := ListU8.ofBytes (List.replicate 13 9) (by decide) 0
    aeadSeal E .aes128Ccm key nonce (.ofBytes [1, 2] (by decide) 0) (.ofBytes [3] (by decide) 0) 8 =
        .ok { ciphertext := [3], tag := [1, 2, 3, 0, 0, 0, 0, 0] } ∧
      aeadOpen E .aes128Ccm key nonce (.ofBytes [1, 2] (by decide) 0) (.ofBytes [3] (by decide) 5)
        (.ofBytes [1, 2, 3, 0, 0, 0, 0, 0] (by decide) 0) = .ok [3] := by
  intro E key nonce
  have hseal : aeadSeal E .aes128Ccm key nonce (.ofBytes [1, 2] (by decide) 0)
      (.ofBytes [3] (by decide) 0) 8 =
        .ok { ciphertext := [3], tag := [1, 2, 3, 0, 0, 0, 0, 0] } := by
    decide +kernel
  refine ⟨hseal, ?_⟩
  obtain ⟨-, -, hopen⟩ := aeadOpen_aeadSeal
    (Reference.follows_ccmReferenceEvp openssl opensslCcm prefixTag).documented
    (Reference.documentedCcm_ccmReferenceEvp opensslCcm_default) (referenceAead_ideal openssl)
    (by rintro c ⟨⟩; rfl) hseal
  exact hopen key nonce _ _ _ rfl rfl rfl (ListU8.bytes_ofBytes _ _ _) (ListU8.bytes_ofBytes _ _ _)

end OpenSSLWasm.Cipher
