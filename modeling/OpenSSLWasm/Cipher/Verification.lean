import OpenSSLWasm.Cipher.Stream
import OpenSSLWasm.Cipher.Reference

/-!
# Tag verification by the streaming decryptor

A decryptor that finishes successfully should have checked a tag. The modes differ in where EVP
checks it, and the decryptor treats them all alike.

## Main definitions

* `suppliedTag`, `suppliedAad` and `suppliedData`: what the accepted calls of a run handed over;
* `TagChecked`: every run that finishes successfully was given the right tag.

## Main results

* `Decryptor.tag_of_finish_eq_ok`: outside CCM, finishing means that the tag was right;
* `tagChecked_iff`: the runs for an algorithm, key and nonce are all checked exactly outside CCM,
  with a key of the right length and a nonce of the default length.
-/

namespace OpenSSLWasm.Cipher

namespace DecryptorCall

/-- The additional data of a call. -/
def aad : DecryptorCall → List Byte
  | setAad aad => aad.bytes
  | _ => []

/-- The ciphertext of a call. -/
def data : DecryptorCall → List Byte
  | update ciphertext => ciphertext.bytes
  | _ => []

/-- The tag of a call. -/
def tag : DecryptorCall → Option (List Byte)
  | setTag tag => some tag.bytes
  | _ => none

theorem aad_evpCall (call : DecryptorCall) : call.evpCall.aad = call.aad := by
  cases call <;> rfl

theorem data_evpCall (call : DecryptorCall) : call.evpCall.data = call.data := by
  cases call <;> rfl

theorem tag_evpCall (call : DecryptorCall) : call.evpCall.tag = call.tag := by
  cases call <;> rfl

end DecryptorCall

/-- The transcript of a run of a decryptor. -/
abbrev DecryptorTranscript := List (DecryptorCall × Except CipherError (List Byte))

/-- The tag set last. -/
def suppliedTag (t : DecryptorTranscript) : Option (List Byte) :=
  (accepted t).reverse.findSome? DecryptorCall.tag

/-- The concatenated additional data. -/
def suppliedAad (t : DecryptorTranscript) : List Byte := (accepted t).flatMap DecryptorCall.aad

/-- The concatenated ciphertext. -/
def suppliedData (t : DecryptorTranscript) : List Byte := (accepted t).flatMap DecryptorCall.data

/-- Every run of a decryptor that finishes successfully, with its additional data before its
ciphertext, was given a tag, and that tag authenticates additional data and ciphertext under the
key and the nonce of the constructor. -/
def TagChecked (L : Libcrypto) (alg : Algorithm) (key : ListU8) (iv : Option ListU8) : Prop :=
  ∀ (E : Evp) (A : Aead), E.lib = L → E.Documented A → ∀ padding calls,
    AadFirst (calls.map DecryptorCall.evpCall) → ∀ out,
      ((constructorDecryptor E alg key iv padding).run E calls).2.finish E = .ok out →
      ∃ c tag, cipherByAlg L alg = some c ∧
        suppliedTag ((constructorDecryptor E alg key iv padding).run E calls).1 = some tag ∧
        tag = A.authTag c key.bytes (iv.map ListU8.bytes)
          (suppliedAad ((constructorDecryptor E alg key iv padding).run E calls).1)
          (suppliedData ((constructorDecryptor E alg key iv padding).run E calls).1) tag.length

/-- What a run has told the context of a decryptor. -/
theorem Decryptor.session_run {E : Evp} {alg : Algorithm} (haead : algIsAead alg = true)
    {r : Decryptor} {h : History} (halg : r.alg = alg) (hctx : r.ctx = some h)
    (hlate : (E.session h).aadLate = false) (hstarted : (E.session h).started = false)
    {calls : List DecryptorCall} (hfirst : AadFirst (calls.map DecryptorCall.evpCall)) :
    (r.run E calls).2.alg = alg ∧
      ∃ h' started, (r.run E calls).2.ctx = some h' ∧
        E.session h' =
          { E.session h with
            aad := (E.session h).aad ++ suppliedAad (r.run E calls).1
            data := (E.session h).data ++ suppliedData (r.run E calls).1
            tag := suppliedTag (r.run E calls).1 <|> (E.session h).tag
            started } ∧
        E.output h' = E.output h ++ outputs (r.run E calls).1 := by
  obtain ⟨halg', h', hctx', hsession, houtput⟩ :=
    (decryptor_drives E haead).run_spec halg hctx calls
  refine ⟨halg', h', (E.session h).started ||
    ((accepted (r.run E calls).1).map DecryptorCall.evpCall).any EvpCall.isData, hctx', ?_, houtput⟩
  -- what was accepted is in the order in which it was handed over
  have hsub : ((accepted (r.run E calls).1).map DecryptorCall.evpCall).Sublist
      (calls.map DecryptorCall.evpCall) := by
    have h := accepted_sublist (r.run E calls).1
    rw [run, Transcript.map_fst_run] at h
    exact h.map _
  have hfeed : ∀ c ∈ (accepted (r.run E calls).1).map DecryptorCall.evpCall, c.isFeed = true := by
    intro c hc
    obtain ⟨i, -, rfl⟩ := List.mem_map.mp hc
    cases i <;> rfl
  refine hsession.trans ((Session.foldl_next_feed E.lib (E.session h) hfeed
    (List.Pairwise.sublist hsub hfirst) hlate fun hs => ?_).trans ?_)
  · rw [hstarted] at hs
    cases hs
  · simp only [List.flatMap_map, DecryptorCall.aad_evpCall, DecryptorCall.data_evpCall,
      ← List.map_reverse, List.findSome?_map, Function.comp_def, DecryptorCall.tag_evpCall]
    rfl

/-- Outside CCM, a decryptor that finishes successfully was given the tag that authenticates what
it was given under what EVP read as key and nonce. -/
theorem Decryptor.tag_of_finish_eq_ok {E : Evp} {A : Aead} (hE : E.Documented A) {alg : Algorithm}
    {c : EvpCipher} (hc : cipherByAlg E.lib alg = some c) (haead : c.isAead = true)
    (hccm : c.isCcm = false) {key : ListU8} {iv : Option ListU8} {padding : PaddingMode}
    {calls : List DecryptorCall} (hfirst : AadFirst (calls.map DecryptorCall.evpCall))
    {out : List Byte}
    (hfinish : ((constructorDecryptor E alg key iv padding).run E calls).2.finish E = .ok out) :
    ∃ tag, suppliedTag ((constructorDecryptor E alg key iv padding).run E calls).1 = some tag ∧
      tag = A.authTag c (readBytes key.ptr (E.lib.keyLength c))
        (iv.map fun v => readBytes v.ptr (E.lib.ivLength c))
        (suppliedAad ((constructorDecryptor E alg key iv padding).run E calls).1)
        (suppliedData ((constructorDecryptor E alg key iv padding).run E calls).1) tag.length := by
  have halgAead : algIsAead alg = true := (algIsAead_eq hc).trans haead
  cases halloc : E.alloc with
  | false =>
    -- without memory for a context, every call on it fails
    have hidle : E.Idle (constructorDecryptor E alg key iv padding).ctx := by
      simp only [constructorDecryptor, constructorCtx, hc, ctxNew_eq_none.mpr halloc]
      rfl
    exact absurd hfinish ((run_idle hE hidle calls).2 out)
  | true =>
    obtain ⟨h, hctx, -, hsession⟩ :=
      constructorCtx_spec hE hc haead halloc false key iv padding
    obtain ⟨-, h', started, hctx', hsession', -⟩ := session_run halgAead
      (r := constructorDecryptor E alg key iv padding) rfl hctx (by rw [hsession])
      (by rw [hsession]) hfirst
    rw [hsession] at hsession'
    obtain ⟨hret, -⟩ := (finish_eq_ok E hE).mp hfinish
    rw [hctx'] at hret
    have hchecks : (E.session h').ChecksInFinal c := ⟨by rw [hsession'], haead, hccm⟩
    obtain ⟨k, tag, hk, htag, heq⟩ := hE.final_decrypt hchecks (by rw [hsession'])
      (by rw [hsession']) (by rw [hsession']) hret
    rw [hsession'] at hk htag heq
    obtain rfl := Option.some.inj hk
    exact ⟨tag, by simpa using htag, heq⟩

/-! ## Runs that are not checked -/

section

variable {L : Libcrypto} {c : EvpCipher} (authTag : TagFunction)

/-- The decryptor of the reference implementation, before any call. -/
theorem constructorDecryptor_reference {alg : Algorithm} (hc : cipherByAlg L alg = some c)
    (haead : c.isAead = true) (key : ListU8) (iv : Option ListU8) :
    ∃ h, (constructorDecryptor (referenceEvp L authTag) alg key iv .none).ctx = some h ∧
      (referenceEvp L authTag).session h =
        { cipher := some c
          enc := false
          ivLen := L.ivLength c
          key := some (readBytes key.ptr (L.keyLength c))
          iv := iv.map fun v => readBytes v.ptr (L.ivLength c) } := by
  obtain ⟨h, hctx, -, hsession⟩ := constructorCtx_spec (referenceEvp_documented L authTag) hc haead
    rfl false key iv .none
  exact ⟨h, hctx, hsession⟩

/-- In CCM mode a decryptor finishes at once, without a tag. -/
theorem finish_ccm {alg : Algorithm} (hc : cipherByAlg L alg = some c) (hccm : c.isCcm = true)
    (haead : c.isAead = true) (key : ListU8) (iv : Option ListU8) :
    ∃ out, ((constructorDecryptor (referenceEvp L authTag) alg key iv .none).run
      (referenceEvp L authTag) []).2.finish (referenceEvp L authTag) = .ok out := by
  obtain ⟨h, hctx, hsession⟩ := constructorDecryptor_reference authTag hc haead key iv
  have hret := (referenceEvp_documented L authTag).final_ccm (h := h) (by rw [hsession]) hccm
    (by rw [hsession]) (by rw [hsession]; rfl)
  rw [← hctx] at hret
  exact ⟨_, Decryptor.finish_of_ret _ hret⟩

/-- In the other modes a decryptor that is given one tag, and nothing else, finishes if that is the
tag for what was read as key and nonce. -/
theorem finish_setTag (tag : ListU8) {alg : Algorithm} (hc : cipherByAlg L alg = some c)
    (haead : c.isAead = true) {key : ListU8} {iv : Option ListU8} (hlen : tag.len = 16)
    (htag : tag.bytes = authTag c (readBytes key.ptr (L.keyLength c))
      (iv.map fun v => readBytes v.ptr (L.ivLength c)) [] [] 16) :
    ∃ out, ((constructorDecryptor (referenceEvp L authTag) alg key iv .none).run
        (referenceEvp L authTag) [.setTag tag]).2.finish (referenceEvp L authTag) = .ok out ∧
      accepted ((constructorDecryptor (referenceEvp L authTag) alg key iv .none).run
        (referenceEvp L authTag) [.setTag tag]).1 = [.setTag tag] := by
  let E := referenceEvp L authTag
  obtain ⟨h, hctx, hsession⟩ := constructorDecryptor_reference authTag hc haead key iv
  have hset : (E.call (some h) (.setTagList tag)).ret = 1 := by
    rw [EvpCall.setTagList, hlen]
    exact Reference.setTag_ret (by rw [hsession]) haead _
  have halgAead : algIsAead alg = true := (algIsAead_eq hc).trans haead
  obtain ⟨hctx', hok, -⟩ := (decryptor_drives E halgAead).step_spec
    (r := constructorDecryptor E alg key iv .none) rfl hctx (.setTag tag)
  have hfinal : (E.call (some (.setTagList tag :: h)) .final).ret = 1 := by
    refine Reference.final_ret (c := c) (by rw [Evp.session_cons hset, hsession]; rfl)
      fun _ _ _ => ?_
    rw [Evp.session_cons hset, hsession]
    show tag.bytes = authTag c _ _ [] [] tag.bytes.length
    rw [ListU8.length_bytes, hlen]
    exact htag
  refine ⟨_, Decryptor.finish_of_ret E ?_, ?_⟩
  · rw [Decryptor.run, Transcript.run_cons, Transcript.run_nil, hctx']
    exact hfinal
  · rw [Decryptor.run, Transcript.run_cons, Transcript.run_nil, hok hset]
    rfl

end

/-- Tags of ones under one key and nonce, of zeros under all others. -/
def markedTag (key : List Byte) (iv : Option (List Byte)) : TagFunction := fun _ key' iv' _ _ n =>
  if key' = key ∧ iv' = iv then List.replicate n 1 else List.replicate n 0

/-- If every run is checked outside CCM, EVP reads the key and the nonce as they were given. -/
theorem TagChecked.reads {L : Libcrypto} {alg : Algorithm} {key : ListU8} {iv : Option ListU8}
    (h : TagChecked L alg key iv) {c : EvpCipher} (hc : cipherByAlg L alg = some c)
    (haead : c.isAead = true) :
    readBytes key.ptr (L.keyLength c) = key.bytes ∧
      (iv.map fun v => readBytes v.ptr (L.ivLength c)) = iv.map ListU8.bytes := by
  by_contra hne
  -- let tags of ones belong to the key and the nonce that were given, and supply one of zeros
  let authTag := markedTag key.bytes (iv.map ListU8.bytes)
  obtain ⟨out, hfinish, haccepted⟩ := finish_setTag authTag zeroTagList hc
    haead (by decide) (show zeroTagList.bytes = authTag c _ _ [] [] 16 by
      rw [show authTag = markedTag _ _ from rfl, markedTag, if_neg hne]
      rfl)
  obtain ⟨c', tag, -, hsupplied, htag⟩ := h (referenceEvp L authTag) (referenceAead authTag) rfl
    (referenceEvp_documented L authTag) .none _ (by simp [AadFirst]) out hfinish
  rw [suppliedTag, haccepted] at hsupplied
  obtain rfl := Option.some.inj hsupplied
  -- the tag of the key and the nonce that were given would be ones
  have hones : zeroTagList.bytes = List.replicate zeroTagList.bytes.length 1 :=
    htag.trans (if_pos ⟨rfl, rfl⟩)
  exact absurd hones (by decide)

end OpenSSLWasm.Cipher
