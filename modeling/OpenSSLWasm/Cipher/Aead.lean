import OpenSSLWasm.Cipher.Stream

/-!
# Sealing and opening outside CCM

For the modes that check their tag in Final, `seal` and `open` compute the AEAD algorithm on the
key that EVP reads, the whole nonce, the additional data and the data.

## Main definitions

* `Session.Ready`: a session that takes data;
* `EvpCall.Acceptable`: what such a session accepts;
* `NonceAccepted`: the nonces that `seal` does not refuse.

## Main results

* `Evp.Documented.ret_of_ready`: a ready context accepts what is acceptable;
* `aeadSeal_eq_ok_iff` and `aeadOpen_eq_ok_iff`: when the one-shot calls succeed, and with what.
-/

namespace OpenSSLWasm.Cipher

/-- A session that takes data: its cipher checks the tag in Final, and key and IV are set. -/
structure Session.Ready (s : Session) (c : EvpCipher) : Prop extends s.ChecksInFinal c where
  key : s.key.isSome = true
  iv : s.iv.isSome = true
  finished : s.finished = false

namespace EvpCall

/-- The calls that a session accepts: their lengths are not negative, and a tag is set for
decryption and of an accepted length. -/
def Acceptable (L : Libcrypto) (c : EvpCipher) (enc : Bool) : EvpCall → Prop
  | .update _ _ n => 0 ≤ n
  | .setTag n _ => enc = false ∧ 0 ≤ n ∧ L.acceptsTagLen c n.toNat = true
  | _ => True

end EvpCall

theorem Session.Ready.next {L : Libcrypto} {s : Session} {c : EvpCipher} (hs : s.Ready c)
    {d : EvpCall} (hd : d.isFeed = true) : (s.next L d).Ready c := by
  rw [Session.next_feed L s hd]
  exact ⟨⟨hs.cipher, hs.isAead, hs.isCcm⟩, hs.key, hs.iv, hs.finished⟩

/-- A ready context accepts every acceptable call, additional data only before the data. -/
theorem Evp.Documented.ret_of_ready {E : Evp} {A : Aead} (hE : E.Documented A) {h : History}
    {c : EvpCipher} (hready : (E.session h).Ready c) {d : EvpCall} (hd : d.isFeed = true)
    (hacc : d.Acceptable E.lib c (E.session h).enc)
    (hstarted : (E.session h).started = true → d.isAad = false) :
    (E.call (some h) d).ret = 1 := by
  cases d with
  | init enc cipher key iv => cases hd
  | setPadding pad => cases hd
  | setIvLen n => cases hd
  | setTag n tag =>
    cases tag with
    | none => cases hd
    | some tag =>
      obtain ⟨henc, hn, hlen⟩ := hacc
      exact (hE.setTag hready.toChecksInFinal henc).mpr ⟨hn, hlen⟩
  | getTag n => cases hd
  | update out inp n =>
    cases inp with
    | none => cases hd
    | some inp =>
      -- additional data is accepted only before the data
      refine hE.update hready.toChecksInFinal hready.key hready.iv hready.finished ?_ hacc
      cases out with
      | true => exact Or.inl rfl
      | false =>
        right
        rw [← Bool.not_eq_true]
        intro hs
        cases hstarted hs
  | final => cases hd

/-- The nonces that `seal` and `open` do not refuse. -/
structure NonceAccepted (L : Libcrypto) (c : EvpCipher) (nonce : ListU8) : Prop where
  len_lt : nonce.len < 2 ^ 31
  accepts : L.acceptsIvLen c nonce.len = true

section

variable {E : Evp} {A : Aead} {alg : Algorithm} {c : EvpCipher} {key nonce aad data : ListU8}

/-! ## The setup -/

/-- Outside CCM the setup sets no tag. -/
theorem setTag_of_mem_none : ∀ t ∈ (none : Option EvpCall), ∃ n tag, t = .setTag n tag := by
  rintro t ⟨⟩

theorem setIvLen_ret_iff (hE : E.Documented A) (haead : c.isAead = true) (enc : Bool) :
    (E.call (some [.init enc (some c) none none]) (.setIvLen (cInt nonce.len))).ret = 1 ↔
      NonceAccepted E.lib c nonce := by
  have hcipher : (E.session [.init enc (some c) none none]).cipher = some c := by
    rw [Evp.session_cons (hE.init rfl haead)]
    rfl
  rw [hE.setIvLen hcipher haead,
    cInt_nonneg_and_iff nonce.len_lt fun n => E.lib.acceptsIvLen c n = true]
  constructor
  · rintro ⟨hlt, haccepts⟩
    exact ⟨hlt, haccepts⟩
  · rintro ⟨hlt, haccepts⟩
    exact ⟨hlt, haccepts⟩

/-- The session that the setup leads to. -/
theorem session_keyedHistory (hE : E.Documented A) (haead : c.isAead = true) (enc : Bool)
    {ccmTag : Option EvpCall} (htag : ∀ t ∈ ccmTag, ∃ n tag, t = .setTag n tag)
    (hnonce : NonceAccepted E.lib c nonce) (key : ListU8) :
    (E.call (some (setupHistory enc c nonce ccmTag))
        (E.initCall (some (setupHistory enc c nonce ccmTag)) enc none (some key.ptr)
          (some nonce.ptr))).ret = 1 ∧
      ∃ t, E.session (keyedHistory E enc c key nonce ccmTag) =
        { cipher := some c
          enc
          ivLen := nonce.len
          key := some (readBytes key.ptr (E.lib.keyLength c))
          iv := some nonce.bytes
          tag := t } := by
  obtain ⟨t, hs⟩ := session_setupHistory (hE.init rfl haead)
    ((setIvLen_ret_iff hE haead enc).mpr hnonce) htag
  rw [cInt_toNat_of_lt hnonce.len_lt] at hs
  have hret : (E.call (some (setupHistory enc c nonce ccmTag))
      (E.initCall (some (setupHistory enc c nonce ccmTag)) enc none (some key.ptr)
        (some nonce.ptr))).ret = 1 :=
    hE.init (by rw [hs]; rfl) haead
  -- the second initialisation reads as many bytes of the nonce as were announced
  refine ⟨hret, t, ?_⟩
  rw [keyedHistory, Evp.session_cons hret, Evp.initCall_none (c := c) (by rw [hs]), hs]
  rfl

/-- The setup writes no output. -/
theorem output_keyedHistory (hE : E.Documented A) (haead : c.isAead = true) {enc : Bool}
    (hnonce : NonceAccepted E.lib c nonce) (key : ListU8) :
    E.output (keyedHistory E enc c key nonce none) = [] := by
  have hinit : (E.call (some []) (.init enc (some c) none none)).ret = 1 := hE.init rfl haead
  have hlen := (setIvLen_ret_iff hE haead enc).mpr hnonce
  have hkeyed := (session_keyedHistory hE haead enc setTag_of_mem_none hnonce key).1
  exact (Evp.output_cons hkeyed).trans ((Evp.output_cons hlen).trans (Evp.output_cons hinit))

theorem aeadSetup_bind_iff (hE : E.Documented A) (haead : c.isAead = true) {enc : Bool}
    {ccmTag : Option EvpCall} (htag : ∀ t ∈ ccmTag, ∃ n tag, t = .setTag n tag) {α : Type}
    {f : Unit → EvpM α} {r : α} {ctx' : Ctx} :
    (aeadSetup E enc c key nonce ccmTag >>= f) (some []) = .ok (r, ctx') ↔
      NonceAccepted E.lib c nonce ∧
        f () (some (keyedHistory E enc c key nonce ccmTag)) = .ok (r, ctx') := by
  rw [aeadSetup_bind_eq_ok]
  constructor
  · rintro ⟨-, hlen, -, hf⟩
    exact ⟨(setIvLen_ret_iff hE haead enc).mp hlen, hf⟩
  · rintro ⟨hnonce, hf⟩
    exact ⟨hE.init rfl haead, (setIvLen_ret_iff hE haead enc).mpr hnonce,
      (session_keyedHistory hE haead enc htag hnonce key).1, hf⟩

/-! ## The data -/

/-- The session after the additional data. -/
theorem session_aadHistory (hE : E.Documented A) (hccm : isCcm alg = false) {h : History}
    (hready : (E.session h).Ready c) (hstarted : (E.session h).started = false)
    (haad : aad.len < 2 ^ 31) (data : ListU8) :
    (aad.len ≠ 0 → (E.call (some h) (.updateList false aad)).ret = 1) ∧
      E.session (aadHistory alg aad data h) =
        { E.session h with aad := (E.session h).aad ++ aad.bytes } ∧
      E.output (aadHistory alg aad data h) = E.output h := by
  have hret : (E.call (some h) (.updateList false aad)).ret = 1 := by
    refine hE.ret_of_ready hready rfl ((cInt_nonneg_iff aad.len_lt).mpr haad) ?_
    rw [hstarted]
    rintro ⟨⟩
  refine ⟨fun _ => hret, ?_⟩
  by_cases hlen : aad.len = 0
  · -- the call is left out, and would have handed over nothing
    have hnil : aad.bytes = [] := List.length_eq_zero_iff.mp (by rw [ListU8.length_bytes, hlen])
    simp [aadHistory, hccm, hlen, hnil]
  · simp only [aadHistory, hccm, hlen, ne_eq, not_false_eq_true, if_true, Bool.false_eq_true,
      if_false, Evp.session_cons hret, Evp.output_cons hret]
    refine ⟨?_, rfl⟩
    rw [Session.next_feed E.lib _ rfl, hstarted]
    simp [EvpCall.updateList, EvpCall.aad, EvpCall.data, EvpCall.tag, EvpCall.isData]

/-- The session after the data. -/
theorem session_dataHistory (hE : E.Documented A) (hccm : isCcm alg = false) {h : History}
    (hready : (E.session h).Ready c) (hstarted : (E.session h).started = false)
    (haad : aad.len < 2 ^ 31) (hdata : data.len < 2 ^ 31) :
    (E.call (some (aadHistory alg aad data h)) (.updateList true data)).ret = 1 ∧
      E.session (.updateList true data :: aadHistory alg aad data h) =
        { E.session h with
          aad := (E.session h).aad ++ aad.bytes
          data := (E.session h).data ++ data.bytes
          started := true } ∧
      E.output (.updateList true data :: aadHistory alg aad data h) =
        E.output h ++
          (E.call (some (aadHistory alg aad data h)) (.updateList true data)).out := by
  obtain ⟨-, hs, ho⟩ := session_aadHistory hE hccm hready hstarted haad data
  have hready' : (E.session (aadHistory alg aad data h)).Ready c := by
    rw [hs]
    exact ⟨⟨hready.cipher, hready.isAead, hready.isCcm⟩, hready.key, hready.iv, hready.finished⟩
  have hret : (E.call (some (aadHistory alg aad data h)) (.updateList true data)).ret = 1 :=
    hE.ret_of_ready hready' rfl ((cInt_nonneg_iff data.len_lt).mpr hdata) fun _ => rfl
  refine ⟨hret, ?_, ?_⟩
  · rw [Evp.session_cons hret, hs]
    rfl
  · rw [Evp.output_cons hret, ho]
    rfl

/-- A ready context takes additional data and data of any length that is an `int`. -/
theorem aeadUpdate_bind_iff (hE : E.Documented A) (hccm : isCcm alg = false) {h : History}
    (hready : (E.session h).Ready c) (hstarted : (E.session h).started = false) {α : Type}
    {f : List Byte → EvpM α} {r : α} {ctx' : Ctx} :
    (aeadUpdate E alg aad data >>= f) (some h) = .ok (r, ctx') ↔
      aad.len < 2 ^ 31 ∧ data.len < 2 ^ 31 ∧
        f (E.call (some (aadHistory alg aad data h)) (.updateList true data)).out
          (some (.updateList true data :: aadHistory alg aad data h)) = .ok (r, ctx') := by
  have hlt : ∀ {h' : History} {out : Bool} {l : ListU8},
      (E.call (some h') (.updateList out l)).ret = 1 → l.len < 2 ^ 31 := by
    intro h' out l hret
    rw [← cInt_nonneg_iff l.len_lt]
    by_contra hneg
    exact hE.update_neg (Int.not_le.mp hneg) hret
  rw [aeadUpdate_bind_eq_ok]
  constructor
  · rintro ⟨haad, hdata, hf⟩
    -- empty additional data is not handed over, and is short enough anyway
    refine ⟨?_, hlt hdata, hf⟩
    rcases Nat.eq_zero_or_pos aad.len with hzero | hpos
    · omega
    · exact hlt (haad (Nat.ne_of_gt hpos))
  · rintro ⟨haad, hdata, hf⟩
    have hret := (session_dataHistory hE hccm hready hstarted haad hdata).1
    refine ⟨fun hlen => ?_, hret, hf⟩
    rw [hccm]
    exact (session_aadHistory hE hccm hready hstarted haad data).1 hlen

end

/-! ## The end -/

section

variable {E : Evp} {A : Aead} {c : EvpCipher} {h : History} {k : List Byte}

/-- How an encryption ends: Final completes the ciphertext, and then there is a tag. -/
theorem encrypt_end (hE : E.Documented A) (hready : (E.session h).Ready c)
    (henc : (E.session h).enc = true) (hlate : (E.session h).aadLate = false)
    (hkey : (E.session h).key = some k) :
    let ct := A.encrypt c k (E.session h).iv (E.session h).aad (E.session h).data
    (E.call (some h) .final).ret = 1 ∧ E.output h ++ (E.call (some h) .final).out = ct ∧
      ∀ n, ((E.call (some (.final :: h)) (.getTag n)).ret = 1 ↔
          0 ≤ n ∧ E.lib.acceptsTagLen c n.toNat = true) ∧
        ((E.call (some (.final :: h)) (.getTag n)).ret = 1 →
          (E.call (some (.final :: h)) (.getTag n)).out =
            A.authTag c k (E.session h).iv (E.session h).aad ct n.toNat) := by
  have hret : (E.call (some h) .final).ret = 1 :=
    hE.final_encrypt hready.toChecksInFinal henc hready.key hready.iv hready.finished
  have hout := hE.final_encrypt_out hready.toChecksInFinal henc hkey hready.finished hlate hret
  have hs := Evp.session_cons hret
  have hchecks : (E.session (.final :: h)).ChecksInFinal c := by
    rw [hs]
    exact ⟨hready.cipher, hready.isAead, hready.isCcm⟩
  rw [Evp.output_cons hret] at hout
  refine ⟨hret, hout, fun n => ⟨?_, fun htag => ?_⟩⟩
  · exact hE.getTag hchecks (by rw [hs]; exact henc) (by rw [hs]; rfl)
  · have htagOut := hE.getTag_out hchecks (by rw [hs]; exact henc) (by rw [hs]; rfl)
      (by rw [hs]; exact hlate) (by rw [hs]; exact hkey) htag
    rw [htagOut, hs]
    rfl

/-- How a decryption ends: Final succeeds if the tag that was set is the right one, and completes
the plaintext. -/
theorem decrypt_end (hE : E.Documented A) (hready : (E.session h).Ready c)
    (henc : (E.session h).enc = false) (hlate : (E.session h).aadLate = false)
    (hkey : (E.session h).key = some k) {tag : List Byte} (htag : (E.session h).tag = some tag) :
    ((E.call (some h) .final).ret = 1 ↔
        tag = A.authTag c k (E.session h).iv (E.session h).aad (E.session h).data tag.length) ∧
      ((E.call (some h) .final).ret = 1 →
        E.output h ++ (E.call (some h) .final).out =
          A.decrypt c k (E.session h).iv (E.session h).aad (E.session h).data) := by
  refine ⟨⟨fun hret => ?_, fun heq => ?_⟩, fun hret => ?_⟩
  · obtain ⟨k', tag', hk, ht, heq⟩ := hE.final_decrypt hready.toChecksInFinal henc
      hready.finished hlate hret
    obtain rfl := Option.some.inj (hkey.symm.trans hk)
    obtain rfl := Option.some.inj (htag.symm.trans ht)
    exact heq
  · exact hE.final_decrypt_ret hready.toChecksInFinal henc hready.finished hlate hkey hready.iv
      htag heq
  · have hout := hE.final_decrypt_out hready.toChecksInFinal henc hkey hready.finished hlate hret
    rwa [Evp.output_cons hret] at hout

end

/-! ## Sealing and opening -/

section

variable {E : Evp} {A : Aead} {alg : Algorithm} {c : EvpCipher} {key nonce aad : ListU8}

/-- The context of `seal` or `open` after the data. -/
def oneShotHistory (E : Evp) (alg : Algorithm) (enc : Bool) (c : EvpCipher)
    (key nonce aad data : ListU8) : History :=
  .updateList true data :: aadHistory alg aad data (keyedHistory E enc c key nonce none)

/-- Its session: key and nonce as they were read, and the data that was given. -/
theorem session_oneShotHistory (hE : E.Documented A) (haead : c.isAead = true)
    (hccm : isCcm alg = false) (hccm' : c.isCcm = false) (enc : Bool)
    (hnonce : NonceAccepted E.lib c nonce) (haad : aad.len < 2 ^ 31) {data : ListU8}
    (hdata : data.len < 2 ^ 31) (key : ListU8) :
    ∃ t, E.session (oneShotHistory E alg enc c key nonce aad data) =
        { cipher := some c
          enc
          ivLen := nonce.len
          key := some (readBytes key.ptr (E.lib.keyLength c))
          iv := some nonce.bytes
          aad := aad.bytes
          data := data.bytes
          tag := t
          started := true } ∧
      E.output (oneShotHistory E alg enc c key nonce aad data) =
        (E.call (some (aadHistory alg aad data (keyedHistory E enc c key nonce none)))
          (.updateList true data)).out := by
  obtain ⟨-, t, hs⟩ := session_keyedHistory hE haead enc setTag_of_mem_none hnonce key
  have hready : (E.session (keyedHistory E enc c key nonce none)).Ready c := by
    rw [hs]
    exact ⟨⟨rfl, haead, hccm'⟩, rfl, rfl, rfl⟩
  obtain ⟨-, hs', ho⟩ := session_dataHistory hE hccm hready (by rw [hs]) haad hdata
  refine ⟨t, ?_, ?_⟩
  · rw [oneShotHistory, hs', hs]
    rfl
  · rw [oneShotHistory, ho, output_keyedHistory hE haead hnonce key, List.nil_append]

/-- How `seal` ends, once nonce and lengths are accepted. -/
theorem seal_end (hE : E.Documented A) (haead : c.isAead = true) (hccm : isCcm alg = false)
    (hccm' : c.isCcm = false) (hnonce : NonceAccepted E.lib c nonce) (haad : aad.len < 2 ^ 31)
    {data : ListU8} (hdata : data.len < 2 ^ 31) (key : ListU8) :
    let h := oneShotHistory E alg true c key nonce aad data
    let k := readBytes key.ptr (E.lib.keyLength c)
    let ct := A.encrypt c k (some nonce.bytes) aad.bytes data.bytes
    (E.call (some h) .final).ret = 1 ∧
      (E.call (some (aadHistory alg aad data (keyedHistory E true c key nonce none)))
        (.updateList true data)).out ++ (E.call (some h) .final).out = ct ∧
      ∀ n, ((E.call (some (.final :: h)) (.getTag n)).ret = 1 ↔
          0 ≤ n ∧ E.lib.acceptsTagLen c n.toNat = true) ∧
        ((E.call (some (.final :: h)) (.getTag n)).ret = 1 →
          (E.call (some (.final :: h)) (.getTag n)).out =
            A.authTag c k (some nonce.bytes) aad.bytes ct n.toNat) := by
  obtain ⟨t, hs, hout⟩ :=
    session_oneShotHistory hE haead hccm hccm' true hnonce haad hdata key
  have hready : (E.session (oneShotHistory E alg true c key nonce aad data)).Ready c := by
    rw [hs]
    exact ⟨⟨rfl, haead, hccm'⟩, rfl, rfl, rfl⟩
  have h := encrypt_end hE hready (by rw [hs]) (by rw [hs]) (by rw [hs])
  rwa [hs, hout] at h

/-- When `seal` succeeds, and with what. -/
theorem aeadSeal_eq_ok_iff (hE : E.Documented A) (hc : cipherByAlg E.lib alg = some c)
    (haead : c.isAead = true) (hccm : c.isCcm = false) {plaintext : ListU8} {tagLen : BitVec 32}
    {r : AeadSealed} :
    aeadSeal E alg key nonce aad plaintext tagLen = .ok r ↔
      E.alloc = true ∧ NonceAccepted E.lib c nonce ∧ aad.len < 2 ^ 31 ∧ plaintext.len < 2 ^ 31 ∧
        (0 ≤ cInt tagLen.toNat ∧ E.lib.acceptsTagLen c (cInt tagLen.toNat).toNat = true) ∧
        let k := readBytes key.ptr (E.lib.keyLength c)
        let ct := A.encrypt c k (some nonce.bytes) aad.bytes plaintext.bytes
        r = { ciphertext := ct
              tag := A.authTag c k (some nonce.bytes) aad.bytes ct (cInt tagLen.toNat).toNat } := by
  have hccm' : isCcm alg = false := (isCcm_eq hc).trans hccm
  -- the body is a setup, the data, and then what `seal_end` is about
  have hbody : ∀ ctx', sealBody E alg c key nonce aad plaintext tagLen (some []) = .ok (r, ctx') ↔
      NonceAccepted E.lib c nonce ∧ aad.len < 2 ^ 31 ∧ plaintext.len < 2 ^ 31 ∧
        let h0 := aadHistory alg aad plaintext (keyedHistory E true c key nonce none)
        let h := oneShotHistory E alg true c key nonce aad plaintext
        (E.call (some h) .final).ret = 1 ∧
          (E.call (some (.final :: h)) (.getTag (cInt tagLen.toNat))).ret = 1 ∧
          { ciphertext := (E.call (some h0) (.updateList true plaintext)).out ++
              (E.call (some h) .final).out
            tag := (E.call (some (.final :: h)) (.getTag (cInt tagLen.toNat))).out } = r ∧
          some (.getTag (cInt tagLen.toNat) :: .final :: h) = ctx' := by
    intro ctx'
    rw [sealBody, hccm', if_neg Bool.false_ne_true,
      aeadSetup_bind_iff hE haead setTag_of_mem_none]
    refine and_congr_right fun hnonce => ?_
    obtain ⟨-, t, hs⟩ := session_keyedHistory hE haead true setTag_of_mem_none hnonce key
    rw [aeadUpdate_bind_iff hE hccm' (c := c)
      (by rw [hs]; exact ⟨⟨rfl, haead, hccm⟩, rfl, rfl, rfl⟩) (by rw [hs])]
    simp only [EvpM.expect_bind_eq_ok, EvpM.pure_eq_ok, Ctx.push_some]
    rfl
  rw [aeadSeal_eq_ok]
  constructor
  · rintro ⟨c', hc', -, halloc, ctx', h⟩
    obtain rfl := Option.some.inj (hc.symm.trans hc')
    obtain ⟨hnonce, haad, hdata, -, htag, rfl, -⟩ := (hbody ctx').mp h
    obtain ⟨-, hct, hget⟩ := seal_end hE haead hccm' hccm hnonce haad hdata key
    obtain ⟨htagLen, htagOut⟩ := hget (cInt tagLen.toNat)
    refine ⟨halloc, hnonce, haad, hdata, htagLen.mp htag, ?_⟩
    rw [AeadSealed.mk.injEq]
    exact ⟨hct, htagOut htag⟩
  · rintro ⟨halloc, hnonce, haad, hdata, htagLen, rfl⟩
    obtain ⟨hfinal, hct, hget⟩ := seal_end hE haead hccm' hccm hnonce haad hdata key
    obtain ⟨htagRet, htagOut⟩ := hget (cInt tagLen.toNat)
    have htag := htagRet.mpr htagLen
    refine ⟨c, hc, (algIsAead_eq hc).trans haead, halloc, _,
      (hbody _).mpr ⟨hnonce, haad, hdata, hfinal, htag, ?_, rfl⟩⟩
    rw [AeadSealed.mk.injEq]
    exact ⟨hct, htagOut htag⟩

/-- How `open` ends, once nonce, lengths and the length of the tag are accepted. -/
theorem open_end (hE : E.Documented A) (haead : c.isAead = true) (hccm : isCcm alg = false)
    (hccm' : c.isCcm = false) (hnonce : NonceAccepted E.lib c nonce) (haad : aad.len < 2 ^ 31)
    {data : ListU8} (hdata : data.len < 2 ^ 31) (key tag : ListU8) :
    let h := oneShotHistory E alg false c key nonce aad data
    let k := readBytes key.ptr (E.lib.keyLength c)
    ((E.call (some h) (.setTagList tag)).ret = 1 ↔
        tag.len < 2 ^ 31 ∧ E.lib.acceptsTagLen c tag.len = true) ∧
      ((E.call (some h) (.setTagList tag)).ret = 1 →
        ((E.call (some (.setTagList tag :: h)) .final).ret = 1 ↔
            tag.bytes = A.authTag c k (some nonce.bytes) aad.bytes data.bytes tag.len) ∧
          ((E.call (some (.setTagList tag :: h)) .final).ret = 1 →
            (E.call (some (aadHistory alg aad data (keyedHistory E false c key nonce none)))
              (.updateList true data)).out ++
                (E.call (some (.setTagList tag :: h)) .final).out =
              A.decrypt c k (some nonce.bytes) aad.bytes data.bytes)) := by
  intro h k
  obtain ⟨t, hs, hout⟩ :=
    session_oneShotHistory hE haead hccm hccm' false hnonce haad hdata key
  have hchecks : (E.session h).ChecksInFinal c := by
    rw [hs]
    exact ⟨rfl, haead, hccm'⟩
  refine ⟨?_, fun htag => ?_⟩
  · rw [EvpCall.setTagList, hE.setTag hchecks (by rw [hs])]
    exact cInt_nonneg_and_iff tag.len_lt fun n => E.lib.acceptsTagLen c n = true
  · have hs' : E.session (.setTagList tag :: h) =
        { E.session h with tag := some tag.bytes } := by
      rw [Evp.session_cons htag]
      rfl
    have ho' : E.output (.setTagList tag :: h) = E.output h := by
      rw [Evp.output_cons htag]
      rfl
    have hready : (E.session (.setTagList tag :: h)).Ready c := by
      rw [hs', hs]
      exact ⟨⟨rfl, haead, hccm'⟩, rfl, rfl, rfl⟩
    have hend := decrypt_end hE hready (by rw [hs', hs]) (by rw [hs', hs]) (by rw [hs', hs])
      (by rw [hs'])
    rwa [ho', hout, hs', hs, ListU8.length_bytes] at hend

/-- When `open` succeeds, and with what. -/
theorem aeadOpen_eq_ok_iff (hE : E.Documented A) (hc : cipherByAlg E.lib alg = some c)
    (haead : c.isAead = true) (hccm : c.isCcm = false) {ciphertext tag : ListU8}
    {r : List Byte} :
    aeadOpen E alg key nonce aad ciphertext tag = .ok r ↔
      E.alloc = true ∧ NonceAccepted E.lib c nonce ∧ aad.len < 2 ^ 31 ∧ ciphertext.len < 2 ^ 31 ∧
        (tag.len < 2 ^ 31 ∧ E.lib.acceptsTagLen c tag.len = true) ∧
        let k := readBytes key.ptr (E.lib.keyLength c)
        tag.bytes = A.authTag c k (some nonce.bytes) aad.bytes ciphertext.bytes tag.len ∧
          r = A.decrypt c k (some nonce.bytes) aad.bytes ciphertext.bytes := by
  have hccm' : isCcm alg = false := (isCcm_eq hc).trans hccm
  -- the body is a setup, the data, and then what `open_end` is about
  have hbody : ∀ ctx', openBody E alg c key nonce aad ciphertext tag (some []) = .ok (r, ctx') ↔
      NonceAccepted E.lib c nonce ∧ aad.len < 2 ^ 31 ∧ ciphertext.len < 2 ^ 31 ∧
        let h0 := aadHistory alg aad ciphertext (keyedHistory E false c key nonce none)
        let h := oneShotHistory E alg false c key nonce aad ciphertext
        (E.call (some h) (.setTagList tag)).ret = 1 ∧
          (E.call (some (.setTagList tag :: h)) .final).ret = 1 ∧
          (E.call (some h0) (.updateList true ciphertext)).out ++
            (E.call (some (.setTagList tag :: h)) .final).out = r ∧
          some (.final :: .setTagList tag :: h) = ctx' := by
    intro ctx'
    rw [openBody, hccm', if_neg Bool.false_ne_true,
      aeadSetup_bind_iff hE haead setTag_of_mem_none]
    refine and_congr_right fun hnonce => ?_
    obtain ⟨-, t, hs⟩ := session_keyedHistory hE haead false setTag_of_mem_none hnonce key
    rw [aeadUpdate_bind_iff hE hccm' (c := c)
      (by rw [hs]; exact ⟨⟨rfl, haead, hccm⟩, rfl, rfl, rfl⟩) (by rw [hs])]
    simp only [Bool.not_false, if_true, EvpM.expect_bind_eq_ok,
      EvpM.pure_eq_ok, Ctx.push_some]
    rfl
  rw [aeadOpen_eq_ok]
  constructor
  · rintro ⟨c', hc', -, halloc, ctx', h⟩
    obtain rfl := Option.some.inj (hc.symm.trans hc')
    obtain ⟨hnonce, haad, hdata, htag, hfinal, rfl, -⟩ := (hbody ctx').mp h
    obtain ⟨htagLen, hend⟩ := open_end hE haead hccm' hccm hnonce haad hdata key tag
    obtain ⟨hverified, hpt⟩ := hend htag
    exact ⟨halloc, hnonce, haad, hdata, htagLen.mp htag, hverified.mp hfinal, hpt hfinal⟩
  · rintro ⟨halloc, hnonce, haad, hdata, htagLen, hverified, rfl⟩
    obtain ⟨htagRet, hend⟩ := open_end hE haead hccm' hccm hnonce haad hdata key tag
    have htag := htagRet.mpr htagLen
    obtain ⟨hfinal, hpt⟩ := hend htag
    exact ⟨c, hc, (algIsAead_eq hc).trans haead, halloc, _,
      (hbody _).mpr ⟨hnonce, haad, hdata, htag, hfinal.mpr hverified, hpt (hfinal.mpr hverified),
        rfl⟩⟩

end

end OpenSSLWasm.Cipher
