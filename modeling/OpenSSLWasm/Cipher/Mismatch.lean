import OpenSSLWasm.Cipher.RoundTrip

/-!
# What `open` says of a wrong tag

Callers tell forged data from faults by the error `tag-mismatch`. Only the last step of `open`
reports it, which is where the tag is checked outside CCM. In CCM mode a wrong tag makes the update
with the ciphertext fail already, and that is reported as an internal error.

## Main definitions

* `Evp.RefusesForgeries`: where CCM checks the tag;
* `WellSized` and `Authenticates`: inputs of `open`, and what their tag should be;
* `MismatchExact`: `tag-mismatch` is the answer to wrong tags and to nothing else.

## Main results

* `aeadOpen_eq_ite` and `aeadOpen_ccm_of_not_authenticates`: the answers to well-sized inputs;
* `mismatchExact_iff`: the answer is exact outside CCM, where there is memory for a context.
-/

namespace OpenSSLWasm.Cipher

/-- CCM gives data out only if the tag that was set is the right one, of the length that was
set. -/
def Evp.RefusesForgeries (E : Evp) (A : Aead) (R : CcmRules) : Prop :=
  ∀ {h s c key tag inp}, E.Reaches R h s → s.Runs c →
    s.Takes (.update true (some inp) inp.length) → s.session.enc = false →
    s.session.key = some key → s.session.tag = some tag →
    (E.call (some h) (.update true (some inp) inp.length)).ret = 1 →
    tag = A.authTag c key s.session.iv s.session.aad inp s.tagLen

/-- Every list has a length that the cipher takes. -/
structure WellSized (L : Libcrypto) (R : CcmRules) (c : EvpCipher)
    (key nonce aad ciphertext tag : ListU8) : Prop where
  key_len : key.len = L.keyLength c
  nonceAccepted : NonceAccepted L c nonce
  aad_lt : aad.len < 2 ^ 31
  ciphertext_lt : ciphertext.len < 2 ^ 31
  fits : c.isCcm = true → R.fits c nonce.len ciphertext.len = true
  tag_lt : tag.len < 2 ^ 31
  acceptsTagLen : L.acceptsTagLen c tag.len = true

/-- The tag is the one of additional data and ciphertext under key and nonce. -/
def Authenticates (A : Aead) (c : EvpCipher) (key nonce aad ciphertext tag : ListU8) : Prop :=
  tag.bytes = A.authTag c key.bytes (some nonce.bytes) aad.bytes ciphertext.bytes tag.len

/-- `open` answers with `tag-mismatch` if the tag is wrong, and only then. -/
def MismatchExact (E : Evp) (A : Aead) (alg : Algorithm) (c : EvpCipher)
    (key nonce aad ciphertext tag : ListU8) : Prop :=
  aeadOpen E alg key nonce aad ciphertext tag = .error .tagMismatch ↔
    ¬Authenticates A c key nonce aad ciphertext tag

section

variable {E : Evp} {A : Aead} {R : CcmRules} {alg : Algorithm} {c : EvpCipher}
  {key nonce aad data ciphertext tag : ListU8}

/-! ## Steps that do not fail -/

/-- With a nonce that is accepted, the setup goes through. -/
theorem aeadSetup_bind_of_accepted (hE : E.Documented A) (haead : c.isAead = true) {enc : Bool}
    {ccmTag : Option EvpCall} (htag : ∀ t ∈ ccmTag, ∃ n tag, t = .setTag n tag)
    (hnonce : NonceAccepted E.lib c nonce) {α : Type} (f : Unit → EvpM α) :
    (aeadSetup E enc c key nonce ccmTag >>= f) (some []) =
      f () (some (keyedHistory E enc c key nonce ccmTag)) := by
  have hinit : (E.call (some []) (E.initCall (some []) enc (some c) none none)).ret = 1 :=
    hE.init rfl haead
  have hlen := (setIvLen_ret_iff hE haead enc).mpr hnonce
  have hkeyed := (session_keyedHistory hE haead enc htag hnonce key).1
  unfold aeadSetup
  rw [bind_assoc, EvpM.expectInit_bind_of_ret hinit, bind_assoc]
  refine (EvpM.expect_bind_of_ret hlen).trans ?_
  -- in CCM mode the tag is set in between, successfully or not
  cases ccmTag with
  | none => exact EvpM.expectInit_bind_of_ret hkeyed
  | some setTag => exact EvpM.expectInit_bind_of_ret hkeyed

/-- With additional data that is accepted, it depends on the data how `open` goes on. -/
theorem aeadUpdate_bind_of_aad {h : History}
    (haad : aad.len ≠ 0 →
      (E.call (some (if isCcm alg then .update false none (cInt data.len) :: h else h))
        (.updateList false aad)).ret = 1) {α : Type} (f : List Byte → EvpM α) :
    (aeadUpdate E alg aad data >>= f) (some h) =
      (EvpM.expect E (.updateList true data) E.internalError >>= f)
        (some (aadHistory alg aad data h)) := by
  unfold aeadUpdate aadHistory
  by_cases hlen : aad.len = 0
  · -- empty additional data is left out
    rcases halg : isCcm alg with _ | _
    · simp only [hlen, Bool.false_eq_true, if_false, ne_eq, not_true_eq_false]
    · simp only [hlen, if_true, if_false, ne_eq, not_true_eq_false, bind_assoc]
      rfl
  · have hret := haad hlen
    rcases halg : isCcm alg with _ | _
    · rw [halg] at hret
      simp only [hlen, Bool.false_eq_true, if_false, if_true, ne_eq, not_false_eq_true, bind_assoc]
      exact EvpM.expect_bind_of_ret hret
    · rw [halg] at hret
      simp only [hlen, if_true, ne_eq, not_false_eq_true, bind_assoc]
      -- nobody looks at whether the length that is announced was accepted
      exact (EvpM.perform_bind _ _).trans (EvpM.expect_bind_of_ret hret)

/-- Where there is memory for a context, `open` is what its body makes of a new one. -/
theorem aeadOpen_of_alloc (hc : cipherByAlg E.lib alg = some c) (haead : algIsAead alg = true)
    (halloc : E.alloc = true) :
    aeadOpen E alg key nonce aad ciphertext tag =
      (openBody E alg c key nonce aad ciphertext tag (some [])).map Prod.fst := by
  unfold aeadOpen
  rw [hc, haead, ctxNew_of_alloc halloc]
  rfl

/-! ## Outside CCM -/

/-- Outside CCM the tag decides in the last step. -/
theorem aeadOpen_eq_ite (hE : E.Documented A) (hc : cipherByAlg E.lib alg = some c)
    (haead : c.isAead = true) (hccm : c.isCcm = false) (halloc : E.alloc = true)
    (hsize : WellSized E.lib R c key nonce aad ciphertext tag)
    [Decidable (Authenticates A c key nonce aad ciphertext tag)] :
    aeadOpen E alg key nonce aad ciphertext tag =
      if Authenticates A c key nonce aad ciphertext tag then
        .ok (A.decrypt c key.bytes (some nonce.bytes) aad.bytes ciphertext.bytes)
      else .error .tagMismatch := by
  have halg : isCcm alg = false := (isCcm_eq hc).trans hccm
  have hread : readBytes key.ptr (E.lib.keyLength c) = key.bytes :=
    ListU8.readBytes_eq_bytes hsize.key_len
  obtain ⟨-, t, hs⟩ := session_keyedHistory hE haead false setTag_of_mem_none hsize.nonceAccepted key
  have hready : (E.session (keyedHistory E false c key nonce none)).Ready c := by
    rw [hs]
    exact ⟨⟨rfl, haead, hccm⟩, rfl, rfl, rfl⟩
  have hstarted : (E.session (keyedHistory E false c key nonce none)).started = false := by rw [hs]
  have haadRet := (session_aadHistory hE halg hready hstarted hsize.aad_lt ciphertext).1
  have hdataRet := (session_dataHistory hE halg hready hstarted hsize.aad_lt hsize.ciphertext_lt).1
  obtain ⟨htagRet, hend⟩ := open_end hE haead halg hccm hsize.nonceAccepted hsize.aad_lt
    hsize.ciphertext_lt key tag
  -- all steps but the last one succeed
  have htag := htagRet.mpr ⟨hsize.tag_lt, hsize.acceptsTagLen⟩
  obtain ⟨hverified, hpt⟩ := hend htag
  rw [hread] at hverified hpt
  rw [oneShotHistory] at htag hverified hpt
  rw [aeadOpen_of_alloc hc ((algIsAead_eq hc).trans haead) halloc, openBody, halg,
    if_neg Bool.false_ne_true, aeadSetup_bind_of_accepted hE haead setTag_of_mem_none
      hsize.nonceAccepted,
    aeadUpdate_bind_of_aad (by rw [halg]; exact haadRet), EvpM.expect_bind_of_ret hdataRet]
  simp only [Bool.not_false, if_true, Ctx.push_some]
  rw [EvpM.expect_bind_of_ret htag]
  by_cases hauth : Authenticates A c key nonce aad ciphertext tag
  · rw [if_pos hauth, ← hpt (hverified.mpr hauth)]
    exact congrArg _ (EvpM.expect_bind_of_ret (hverified.mpr hauth))
  · rw [if_neg hauth]
    exact congrArg _ (EvpM.expect_bind_of_ret_ne (mt hverified.mp hauth))

/-! ## In CCM mode -/

/-- In CCM mode a wrong tag shows when the ciphertext is processed, and what goes wrong there is
reported as an internal error. -/
theorem aeadOpen_ccm_of_not_authenticates (hE : E.Documented A) (hC : E.DocumentedCcm A R)
    (hF : E.RefusesForgeries A R) (hc : cipherByAlg E.lib alg = some c) (hccm : c.isCcm = true)
    (halloc : E.alloc = true) (hsize : WellSized E.lib R c key nonce aad ciphertext tag)
    (hauth : ¬Authenticates A c key nonce aad ciphertext tag) :
    ∃ code, aeadOpen E alg key nonce aad ciphertext tag = .error (.internal code) := by
  have halg : isCcm alg = true := (isCcm_eq hc).trans hccm
  have haead := EvpCipher.isAead_of_isCcm hccm
  have hread : readBytes key.ptr (E.lib.keyLength c) = key.bytes :=
    ListU8.readBytes_eq_bytes hsize.key_len
  obtain ⟨haadRet, hready⟩ := reaches_openHistory hE hC halg hccm hsize.nonceAccepted hsize.aad_lt
    hsize.ciphertext_lt (hsize.fits hccm) hsize.tag_lt hsize.acceptsTagLen key
  -- the update that should give out the plaintext is where the tag is refused
  have hdataRet : (E.call (some (aadHistory alg aad ciphertext
      (keyedHistory E false c key nonce (some (.setTagList tag)))))
        (.updateList true ciphertext)).ret ≠ 1 := by
    rw [updateList_eq hsize.ciphertext_lt]
    intro hret
    refine hauth ?_
    rw [Authenticates, ← hread]
    exact hF hready ⟨rfl, hccm⟩ ⟨rfl, rfl⟩ rfl rfl rfl hret
  rw [aeadOpen_of_alloc hc ((algIsAead_eq hc).trans haead) halloc, openBody, halg, if_pos rfl,
    aeadSetup_bind_of_accepted hE haead (by rintro _ ⟨⟩; exact ⟨_, _, rfl⟩) hsize.nonceAccepted,
    aeadUpdate_bind_of_aad (by rw [halg]; exact fun _ => haadRet),
    EvpM.expect_bind_of_ret_ne hdataRet]
  exact ⟨_, rfl⟩

/-- Without memory for a context, `open` gives up before it looks at its inputs. -/
theorem aeadOpen_of_not_alloc (hc : cipherByAlg E.lib alg = some c) (haead : algIsAead alg = true)
    (halloc : E.alloc = false) :
    aeadOpen E alg key nonce aad ciphertext tag = .error (.internal 0) := by
  unfold aeadOpen
  rw [hc, haead, ctxNew_eq_none.mpr halloc]
  rfl

/-! ## When the answer is exact -/

/-- For well-sized inputs of an AEAD algorithm, `open` answers with `tag-mismatch` exactly if the
tag is wrong, precisely where there is memory for a context and the algorithm is not a CCM one, or
there is no wrong tag to report. -/
theorem mismatchExact_iff (hE : E.Documented A) (hC : E.DocumentedCcm A R)
    (hF : E.RefusesForgeries A R) (hc : cipherByAlg E.lib alg = some c)
    (haead : algIsAead alg = true) (hsize : WellSized E.lib R c key nonce aad ciphertext tag) :
    MismatchExact E A alg c key nonce aad ciphertext tag ↔
      (E.alloc = true ∧ isCcm alg = false) ∨ Authenticates A c key nonce aad ciphertext tag := by
  classical
  have haead' : c.isAead = true := (algIsAead_eq hc).symm.trans haead
  have hread : readBytes key.ptr (E.lib.keyLength c) = key.bytes :=
    ListU8.readBytes_eq_bytes hsize.key_len
  unfold MismatchExact
  cases halloc : E.alloc with
  | false =>
    -- the answer is an internal error, whatever the tag
    rw [aeadOpen_of_not_alloc hc haead halloc]
    simp
  | true =>
    rcases hccm : c.isCcm with _ | _
    · rw [aeadOpen_eq_ite hE hc haead' hccm halloc hsize, isCcm_eq hc, hccm]
      by_cases hauth : Authenticates A c key nonce aad ciphertext tag
      · rw [if_pos hauth]
        simp [hauth]
      · rw [if_neg hauth]
        simp [hauth]
    · rw [isCcm_eq hc, hccm]
      by_cases hauth : Authenticates A c key nonce aad ciphertext tag
      · -- the right tag is accepted
        rw [aeadOpen_ccm hE hC hc hccm halloc hsize.nonceAccepted hsize.aad_lt hsize.ciphertext_lt
          (hsize.fits hccm) hsize.tag_lt hsize.acceptsTagLen (by rw [hread]; exact hauth)]
        simp [hauth]
      · obtain ⟨code, hcode⟩ := aeadOpen_ccm_of_not_authenticates hE hC hF hc hccm halloc hsize hauth
        rw [hcode]
        simp [hauth]

end

/-! ## A forged ciphertext -/

theorem ccmReferenceEvp_refusesForgeries (L : Libcrypto) (R : CcmRules) (authTag : TagFunction) :
    (ccmReferenceEvp L R authTag).RefusesForgeries (referenceAead authTag) R := by
  intro h s c key tag inp hs hruns _ henc hkey htag hret
  rw [Reference.ccmCall_eq, hs.state, Reference.answer_of_runs hruns] at hret
  obtain ⟨-, -, hchecked⟩ := (Reference.accept_ret _ _).mp hret
  obtain ⟨-, hverified⟩ := hchecked henc
  rw [Reference.CcmVerified, hkey, htag] at hverified
  exact hverified

/-- A key of sixteen bytes, a nonce of twelve, one byte of additional data and one of ciphertext,
and a tag of sixteen bytes that does not begin with the two. -/
theorem wellSized_forged {c : EvpCipher} (hc : c = .aes .k128 .gcm ∨ c = .aes .k128 .ccm) :
    WellSized openssl opensslCcm c (.ofBytes (List.replicate 16 7) (by decide) 0)
      (.ofBytes (List.replicate 12 9) (by decide) 0) (.ofBytes [1] (by decide) 0)
      (.ofBytes [3] (by decide) 0) zeroTagList := by
  rcases hc with rfl | rfl
  · exact ⟨rfl, ⟨by decide, rfl⟩, by decide, by decide, (fun h => by cases h), by decide, rfl⟩
  · exact ⟨rfl, ⟨by decide, rfl⟩, by decide, by decide, fun _ => rfl, by decide, rfl⟩

/-- AES-128-GCM: the forged tag is reported as such. -/
theorem mismatchExact_aes128Gcm :
    MismatchExact (ccmReferenceEvp openssl opensslCcm prefixTag) (referenceAead prefixTag)
      .aes128Gcm (.aes .k128 .gcm) (.ofBytes (List.replicate 16 7) (by decide) 0)
      (.ofBytes (List.replicate 12 9) (by decide) 0) (.ofBytes [1] (by decide) 0)
      (.ofBytes [3] (by decide) 0) zeroTagList :=
  (mismatchExact_iff
    (Reference.follows_ccmReferenceEvp openssl opensslCcm prefixTag).documented
    (Reference.documentedCcm_ccmReferenceEvp opensslCcm_default)
    (ccmReferenceEvp_refusesForgeries openssl opensslCcm prefixTag) rfl rfl
    (wellSized_forged (.inl rfl))).mpr (.inl ⟨rfl, rfl⟩)

/-- AES-128-CCM: the same forged tag is reported as an internal error. -/
theorem not_mismatchExact_aes128Ccm :
    let E := ccmReferenceEvp openssl opensslCcm prefixTag
    let A := referenceAead prefixTag
    let key := ListU8.ofBytes (List.replicate 16 7) (by decide) 0
    let nonce := ListU8.ofBytes (List.replicate 12 9) (by decide) 0
    let aad := ListU8.ofBytes [1] (by decide) 0
    let ciphertext := ListU8.ofBytes [3] (by decide) 0
    (E.Documented A ∧ E.DocumentedCcm A opensslCcm ∧ E.RefusesForgeries A opensslCcm) ∧
      WellSized openssl opensslCcm (.aes .k128 .ccm) key nonce aad ciphertext zeroTagList ∧
      aeadOpen E .aes128Ccm key nonce aad ciphertext zeroTagList = .error (.internal 0) ∧
      ¬MismatchExact E A .aes128Ccm (.aes .k128 .ccm) key nonce aad ciphertext zeroTagList := by
  intro E A key nonce aad ciphertext
  have hopen : aeadOpen E .aes128Ccm key nonce aad ciphertext zeroTagList =
      .error (.internal 0) := by
    decide +kernel
  have hauth : ¬Authenticates A (.aes .k128 .ccm) key nonce aad ciphertext zeroTagList := by
    unfold Authenticates
    decide +kernel
  refine ⟨⟨(Reference.follows_ccmReferenceEvp openssl opensslCcm prefixTag).documented,
    Reference.documentedCcm_ccmReferenceEvp opensslCcm_default,
    ccmReferenceEvp_refusesForgeries openssl opensslCcm prefixTag⟩, wellSized_forged (.inr rfl),
    hopen, fun h => ?_⟩
  have hmismatch := h.mpr hauth
  rw [hopen] at hmismatch
  cases hmismatch

end OpenSSLWasm.Cipher
