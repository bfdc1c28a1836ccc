import OpenSSLWasm.Cipher.Aead
import OpenSSLWasm.Cipher.Verification

/-!
# Streaming against the one-shot calls

A streaming resource that is fed additional data and data in pieces should compute what `seal` and
`open` compute on the whole. The one-shot calls tell EVP the length of the nonce, the streaming
constructors do not, so that the two agree only on nonces of the default length.

## Main definitions

* `Splits`: calls that hand over given additional data and then given data, in any pieces;
* `SealAgrees` and `OpenAgrees`: a streaming resource does what the one-shot call does;
* `SplitsAgree`: both agree, for every key and libcrypto.

## Main results

* `Encryptor.run_eq` and `Decryptor.run_eq_ok_iff`: what a split run computes;
* `splitsAgree_iff`: the two interfaces agree exactly on nonces of the default length.
-/

namespace OpenSSLWasm.Cipher

/-! ## Split runs -/

/-- The calls hand over the additional data and then the data, in any pieces. -/
structure Splits (cs : List EvpCall) (aad data : List Byte) : Prop where
  aadFirst : AadFirst cs
  aad : cs.flatMap EvpCall.aad = aad
  data : cs.flatMap EvpCall.data = data

/-- No call of the transcript failed. -/
def AllOk {ι : Type} (t : List (ι × Except CipherError (List Byte))) : Prop :=
  ∀ p ∈ t, ∃ out, p.2 = .ok out

/-- Where no call failed, all were accepted. -/
theorem AllOk.accepted_eq {ι : Type} {t : List (ι × Except CipherError (List Byte))}
    (h : AllOk t) : accepted t = t.map Prod.fst := by
  induction t with
  | nil => rfl
  | cons p t ih =>
    obtain ⟨i, answer⟩ := p
    obtain ⟨out, rfl⟩ := h _ List.mem_cons_self
    show i :: accepted t = i :: t.map Prod.fst
    rw [ih fun q hq => h q (List.mem_cons_of_mem _ hq)]

/-- A ready context accepts nothing else: the calls that succeed are the acceptable ones. -/
theorem Evp.Documented.ret_iff_acceptable {E : Evp} {A : Aead} (hE : E.Documented A) {h : History}
    {c : EvpCipher} (hready : (E.session h).Ready c) {d : EvpCall} (hd : d.isFeed = true)
    (htag : (E.session h).enc = true → d.tag = none)
    (hstarted : (E.session h).started = true → d.isAad = false) :
    (E.call (some h) d).ret = 1 ↔ d.Acceptable E.lib c (E.session h).enc := by
  refine ⟨fun hret => ?_, fun hacc => hE.ret_of_ready hready hd hacc hstarted⟩
  cases d with
  | init enc cipher key iv => trivial
  | setPadding pad => trivial
  | setIvLen n => trivial
  | getTag n => trivial
  | final => trivial
  | update out inp n =>
    show 0 ≤ n
    by_contra hneg
    exact hE.update_neg (Int.not_le.mp hneg) hret
  | setTag n tag =>
    cases tag with
    | none => cases hd
    | some tag =>
      have henc : (E.session h).enc = false := by
        rw [← Bool.not_eq_true]
        intro henc
        cases htag henc
      exact ⟨henc, (hE.setTag hready.toChecksInFinal henc).mp hret⟩

namespace Drives

variable {E : Evp} {A : Aead} {R ι : Type} {step : R → ι → Except CipherError (List Byte) × R}
  {P : R → Prop} {ctx : R → Ctx} {evpCall : ι → EvpCall} {answer : ι → List Byte → List Byte}

/-- A run with the additional data first, on a ready context, fails nowhere exactly if all its
calls are acceptable. -/
theorem allOk_run_iff (hD : Drives E step P ctx evpCall answer) (hE : E.Documented A)
    {c : EvpCipher} {r : R} {h : History} (hr : P r) (hctx : ctx r = some h)
    (hready : (E.session h).Ready c) {calls : List ι}
    (htag : (E.session h).enc = true → ∀ i ∈ calls, (evpCall i).tag = none)
    (hfirst : AadFirst (calls.map evpCall))
    (hstarted : (E.session h).started = true → ∀ i ∈ calls, (evpCall i).isAad = false) :
    AllOk (Transcript.run step r calls).1 ↔
      ∀ i ∈ calls, (evpCall i).Acceptable E.lib c (E.session h).enc := by
  -- by induction on the calls: what succeeds leaves the context ready for the rest
  induction calls generalizing r h with
  | nil => simp [AllOk]
  | cons i is ih =>
    have hfeed := hD.isFeed i
    obtain ⟨hctx', hok, herr⟩ := hD.step_spec hr hctx i
    have hret := hE.ret_iff_acceptable hready hfeed (fun he => htag he i List.mem_cons_self)
      fun hs => hstarted hs i List.mem_cons_self
    obtain ⟨hhead, htail⟩ := List.pairwise_cons.mp hfirst
    by_cases hacc : (evpCall i).Acceptable E.lib c (E.session h).enc
    · -- the call succeeds, and the rest of the run starts in a ready context again
      have hs : E.session (evpCall i :: h) = (E.session h).next E.lib (evpCall i) :=
        Evp.session_cons (hret.mpr hacc)
      have henc : (E.session (evpCall i :: h)).enc = (E.session h).enc := by
        rw [hs, Session.next_feed E.lib _ hfeed]
      have hready' : (E.session (evpCall i :: h)).Ready c := by
        rw [hs]
        exact hready.next hfeed
      have hrest := ih (hD.step_mem hr) hctx' hready'
        (fun he j hj => htag (henc ▸ he) j (List.mem_cons_of_mem _ hj)) htail ?_
      · rw [henc] at hrest
        rw [Transcript.run_cons, hok (hret.mpr hacc), List.forall_mem_cons, ← hrest]
        simp [AllOk, hacc]
      · rw [hs, Session.next_feed E.lib _ hfeed]
        intro hs' j hj
        rcases Bool.or_eq_true _ _ ▸ hs' with hs' | hs'
        · exact hstarted hs' j (List.mem_cons_of_mem _ hj)
        · exact hhead _ (List.mem_map_of_mem hj) hs'
    · -- the call fails
      obtain ⟨e, he⟩ := herr (mt hret.mp hacc)
      constructor
      · intro hall
        obtain ⟨out, hout⟩ := hall _ List.mem_cons_self
        rw [he] at hout
        cases hout
      · intro hall
        exact absurd (hall i List.mem_cons_self) hacc

/-- After a run that splits additional data and data, the context was told the whole of both. -/
theorem run_splits (hD : Drives E step P ctx evpCall answer) {c : EvpCipher} {r : R} {h : History}
    (hr : P r) (hctx : ctx r = some h) {calls : List ι} {aad data : List Byte}
    (hready : (E.session h).Ready c) (hlate : (E.session h).aadLate = false)
    (hstarted : (E.session h).started = false) (hsplits : Splits (calls.map evpCall) aad data)
    (hall : AllOk (Transcript.run step r calls).1) :
    P (Transcript.run step r calls).2 ∧
      ∃ h', ctx (Transcript.run step r calls).2 = some h' ∧ (E.session h').Ready c ∧
        (∃ started, E.session h' =
          { E.session h with
            aad := (E.session h).aad ++ aad
            data := (E.session h).data ++ data
            tag := (calls.map evpCall).reverse.findSome? EvpCall.tag <|> (E.session h).tag
            started }) ∧
        E.output h' = E.output h ++ outputs (Transcript.run step r calls).1 := by
  obtain ⟨hr', h', hctx', hsession, houtput⟩ := hD.run_spec hr hctx calls
  have hfeed : ∀ d ∈ calls.map evpCall, d.isFeed = true := by
    intro d hd
    obtain ⟨i, -, rfl⟩ := List.mem_map.mp hd
    exact hD.isFeed i
  rw [hall.accepted_eq, Transcript.map_fst_run, Session.foldl_next_feed E.lib _ hfeed
    hsplits.aadFirst hlate (fun hs => by rw [hstarted] at hs; cases hs), hsplits.aad,
    hsplits.data] at hsession
  refine ⟨hr', h', hctx', ?_, ⟨_, hsession⟩, houtput⟩
  rw [hsession]
  exact ⟨⟨hready.cipher, hready.isAead, hready.isCcm⟩, hready.key, hready.iv, hready.finished⟩

end Drives

/-! ## Streaming encryption -/

section

variable {E : Evp} {A : Aead} {alg : Algorithm} {c : EvpCipher} {aad data : List Byte}

/-- The context of a constructor takes data. -/
theorem constructorCtx_ready (hE : E.Documented A) (hc : cipherByAlg E.lib alg = some c)
    (haead : c.isAead = true) (hccm : c.isCcm = false) (halloc : E.alloc = true) (enc : Bool)
    (key nonce : ListU8) (padding : PaddingMode) :
    ∃ h, constructorCtx E enc alg key (some nonce) padding = some h ∧ E.output h = [] ∧
      (E.session h).Ready c ∧
      E.session h =
        { cipher := some c
          enc
          ivLen := E.lib.ivLength c
          key := some (readBytes key.ptr (E.lib.keyLength c))
          iv := some (readBytes nonce.ptr (E.lib.ivLength c)) } := by
  obtain ⟨h, hctx, hout, hsession⟩ :=
    constructorCtx_spec hE hc haead halloc enc key (some nonce) padding
  refine ⟨h, hctx, hout, ?_, hsession⟩
  rw [hsession]
  exact ⟨⟨rfl, haead, hccm⟩, rfl, rfl, rfl⟩

/-- An encryptor fed in pieces computes the AEAD algorithm on the whole, for the bytes that EVP
reads at the nonce. -/
theorem Encryptor.run_eq (hE : E.Documented A) (hc : cipherByAlg E.lib alg = some c)
    (haead : c.isAead = true) (hccm : c.isCcm = false) (halloc : E.alloc = true)
    (key nonce : ListU8) (padding : PaddingMode) {calls : List EncryptorCall}
    (hsplits : Splits (calls.map EncryptorCall.evpCall) aad data)
    (hlen : ∀ i ∈ calls, i.evpCall.Acceptable E.lib c true) :
    let t := (constructorEncryptor E alg key (some nonce) padding).run E calls
    let k := readBytes key.ptr (E.lib.keyLength c)
    let iv := readBytes nonce.ptr (E.lib.ivLength c)
    let ct := A.encrypt c k (some iv) aad data
    AllOk t.1 ∧ ∃ last, t.2.finish E = .ok (last, some (A.authTag c k (some iv) aad ct 16)) ∧
      outputs t.1 ++ last = ct := by
  intro t k iv ct
  have halgAead : algIsAead alg = true := (algIsAead_eq hc).trans haead
  obtain ⟨h, hctx, hout, hready, hsession⟩ :=
    constructorCtx_ready hE hc haead hccm halloc true key nonce padding
  have hD := encryptor_drives E halgAead
  have hr : (constructorEncryptor E alg key (some nonce) padding).alg = alg ∧
      (constructorEncryptor E alg key (some nonce) padding).tagLen = 16 := ⟨rfl, rfl⟩
  have hnotag : ∀ i ∈ calls, i.evpCall.tag = none := by
    intro i _
    cases i <;> rfl
  have hall : AllOk t.1 := by
    refine (hD.allOk_run_iff hE hr hctx hready (fun _ => hnotag) hsplits.aadFirst ?_).mpr ?_
    · rw [hsession]
      rintro ⟨⟩
    · rwa [hsession]
  obtain ⟨⟨halg, htagLen⟩, h', hctx', hready', ⟨started, hsession'⟩, houtput⟩ :=
    hD.run_splits hr hctx hready (by rw [hsession]) (by rw [hsession]) hsplits hall
  rw [hsession] at hsession'
  rw [hout, List.nil_append] at houtput
  obtain ⟨hfinal, hct, hget⟩ := encrypt_end hE hready' (by rw [hsession']) (by rw [hsession'])
    (by rw [hsession'])
  obtain ⟨htag, htagOut⟩ := hget 16
  rw [hsession'] at hct htagOut
  have hret := htag.mpr ⟨by decide, E.lib.acceptsTagLen_16 c haead⟩
  refine ⟨hall, (E.call (some h') .final).out, ?_, ?_⟩
  · rw [finish, show t.2.ctx = some h' from hctx', show t.2.alg = alg from halg,
      show t.2.tagLen = 16 from htagLen, hfinal, if_neg (by decide), if_pos halgAead,
      Ctx.push_some, Evp.attempt, if_pos hret, htagOut hret]
    rfl
  · rw [houtput] at hct
    exact hct

/-- The calls on a decryptor give this tag, and no other. -/
def GivesTag (calls : List DecryptorCall) (tag : ListU8) : Prop :=
  ∃ before after, calls = before ++ .setTag tag :: after ∧
    ∀ i ∈ before ++ after, i.tag = none

/-- What holds of all calls but the one with the tag holds of all exactly if it holds of that. -/
theorem GivesTag.forall_iff {calls : List DecryptorCall} {tag : ListU8} (h : GivesTag calls tag)
    {P : DecryptorCall → Prop} (hP : ∀ i ∈ calls, i.tag = none → P i) :
    (∀ i ∈ calls, P i) ↔ P (.setTag tag) := by
  obtain ⟨before, after, rfl, hothers⟩ := h
  constructor
  · intro hall
    exact hall _ (by simp)
  · intro htag i hi
    rcases List.mem_append.mp hi with hi | hi
    · exact hP i (by simp [hi]) (hothers i (by simp [hi]))
    · rcases List.mem_cons.mp hi with rfl | hi
      · exact htag
      · exact hP i (by simp [hi]) (hothers i (by simp [hi]))

/-- The tag is the last one that was set, wherever it stands. -/
theorem GivesTag.findSome?_tag {calls : List DecryptorCall} {tag : ListU8}
    (h : GivesTag calls tag) :
    (calls.map DecryptorCall.evpCall).reverse.findSome? EvpCall.tag = some tag.bytes := by
  obtain ⟨before, after, rfl, hothers⟩ := h
  have hafter : (after.map DecryptorCall.evpCall).reverse.findSome? EvpCall.tag = none := by
    rw [List.findSome?_eq_none_iff]
    intro d hd
    obtain ⟨i, hi, rfl⟩ := List.mem_map.mp (List.mem_reverse.mp hd)
    rw [DecryptorCall.tag_evpCall]
    exact hothers i (by simp [hi])
  rw [List.map_append, List.map_cons, List.reverse_append, List.reverse_cons, List.append_assoc,
    List.findSome?_append, hafter]
  rfl

/-- EVP takes a tag of any length that an `int` can hold and the cipher has. -/
theorem acceptable_setTag_iff {L : Libcrypto} {c : EvpCipher} {tag : ListU8} :
    (DecryptorCall.setTag tag).evpCall.Acceptable L c false ↔
      tag.len < 2 ^ 31 ∧ L.acceptsTagLen c tag.len = true := by
  show (false = false ∧ 0 ≤ cInt tag.len ∧ _) ↔ _
  rw [eq_self, true_and]
  exact cInt_nonneg_and_iff tag.len_lt fun n => L.acceptsTagLen c n = true

/-- A decryptor fed in pieces accepts what the AEAD algorithm accepts on the whole, for the bytes
that EVP reads at the nonce. -/
theorem Decryptor.run_eq_ok_iff (hE : E.Documented A) (hc : cipherByAlg E.lib alg = some c)
    (haead : c.isAead = true) (hccm : c.isCcm = false) (halloc : E.alloc = true)
    (key nonce : ListU8) (padding : PaddingMode) {calls : List DecryptorCall} {tag : ListU8}
    (hsplits : Splits (calls.map DecryptorCall.evpCall) aad data) (htag : GivesTag calls tag)
    (hlen : ∀ i ∈ calls, i.tag = none → i.evpCall.Acceptable E.lib c false) {pt : List Byte} :
    let t := (constructorDecryptor E alg key (some nonce) padding).run E calls
    let k := readBytes key.ptr (E.lib.keyLength c)
    let iv := readBytes nonce.ptr (E.lib.ivLength c)
    (AllOk t.1 ∧ ∃ last, t.2.finish E = .ok last ∧ outputs t.1 ++ last = pt) ↔
      (tag.len < 2 ^ 31 ∧ E.lib.acceptsTagLen c tag.len = true) ∧
        tag.bytes = A.authTag c k (some iv) aad data tag.len ∧
          pt = A.decrypt c k (some iv) aad data := by
  intro t k iv
  have halgAead : algIsAead alg = true := (algIsAead_eq hc).trans haead
  obtain ⟨h, hctx, hout, hready, hsession⟩ :=
    constructorCtx_ready hE hc haead hccm halloc false key nonce padding
  have hD := decryptor_drives E halgAead
  have hall : AllOk t.1 ↔ tag.len < 2 ^ 31 ∧ E.lib.acceptsTagLen c tag.len = true := by
    have hiff : AllOk t.1 ↔ ∀ i ∈ calls, i.evpCall.Acceptable E.lib c (E.session h).enc := by
      refine hD.allOk_run_iff hE rfl hctx hready ?_ hsplits.aadFirst ?_
      · rw [hsession]
        rintro ⟨⟩
      · rw [hsession]
        rintro ⟨⟩
    rw [hsession] at hiff
    exact hiff.trans ((htag.forall_iff hlen).trans acceptable_setTag_iff)
  rw [hall]
  refine and_congr_right fun htagLen => ?_
  obtain ⟨-, h', hctx', hready', ⟨started, hsession'⟩, houtput⟩ :=
    hD.run_splits (r := constructorDecryptor E alg key (some nonce) padding) rfl hctx hready
      (by rw [hsession]) (by rw [hsession]) hsplits (hall.mpr htagLen)
  rw [hsession] at hsession'
  rw [hout, List.nil_append] at houtput
  rw [htag.findSome?_tag] at hsession'
  have htag' : (E.session h').tag = some tag.bytes := by
    rw [hsession']
    rfl
  obtain ⟨hverified, hpt⟩ := decrypt_end hE hready' (by rw [hsession']) (by rw [hsession'])
    (by rw [hsession']) htag'
  rw [hsession', ListU8.length_bytes] at hverified
  rw [hsession', houtput] at hpt
  have hfinish : ∀ last, t.2.finish E = .ok last ↔
      (E.call (some h') .final).ret = 1 ∧ (E.call (some h') .final).out = last := by
    intro last
    rw [finish_eq_ok E hE, show t.2.ctx = some h' from hctx']
  constructor
  · rintro ⟨last, hlast, rfl⟩
    obtain ⟨hret, rfl⟩ := (hfinish last).mp hlast
    exact ⟨hverified.mp hret, hpt hret⟩
  · rintro ⟨heq, rfl⟩
    have hret := hverified.mpr heq
    exact ⟨_, (hfinish _).mpr ⟨hret, rfl⟩, hpt hret⟩

end

/-! ## Agreement -/

/-- However additional data and plaintext are split, the encryptor computes what `seal` computes
with a tag of sixteen bytes. -/
def SealAgrees (E : Evp) (alg : Algorithm) (key nonce aad plaintext : ListU8) : Prop :=
  ∀ padding calls r, Splits (calls.map EncryptorCall.evpCall) aad.bytes plaintext.bytes →
    aeadSeal E alg key nonce aad plaintext 16 = .ok r →
    let t := (constructorEncryptor E alg key (some nonce) padding).run E calls
    AllOk t.1 ∧ ∃ last, t.2.finish E = .ok (last, some r.tag) ∧ outputs t.1 ++ last = r.ciphertext

/-- However additional data and ciphertext are split, and wherever the tag is given, the decryptor
accepts what `open` accepts, with the same plaintext. -/
def OpenAgrees (E : Evp) (alg : Algorithm) (key nonce aad ciphertext : ListU8) : Prop :=
  ∀ padding calls tag pt, Splits (calls.map DecryptorCall.evpCall) aad.bytes ciphertext.bytes →
    GivesTag calls tag →
    let t := (constructorDecryptor E alg key (some nonce) padding).run E calls
    (aeadOpen E alg key nonce aad ciphertext tag = .ok pt ↔
      AllOk t.1 ∧ ∃ last, t.2.finish E = .ok last ∧ outputs t.1 ++ last = pt)

/-- For a nonce that the one-shot calls accept, streaming agrees with them under every key of the
right length. -/
def SplitsAgree (L : Libcrypto) (alg : Algorithm) (nonce aad data : ListU8) : Prop :=
  ∀ c, cipherByAlg L alg = some c → NonceAccepted L c nonce →
    ∀ (E : Evp) (A : Aead), E.lib = L → E.Documented A → ∀ key : ListU8,
      key.len = L.keyLength c →
        SealAgrees E alg key nonce aad data ∧ OpenAgrees E alg key nonce aad data

/-- A call of a split run hands over no more than the whole. -/
theorem Splits.length_le {cs : List EvpCall} {aad data : List Byte} (h : Splits cs aad data)
    {d : EvpCall} (hd : d ∈ cs) :
    d.aad.length ≤ aad.length ∧ d.data.length ≤ data.length := by
  rw [← h.aad, ← h.data]
  exact ⟨(List.sublist_flatten_of_mem (List.mem_map_of_mem hd)).length_le,
    (List.sublist_flatten_of_mem (List.mem_map_of_mem hd)).length_le⟩

section

variable {E : Evp} {A : Aead} {alg : Algorithm} {c : EvpCipher} {key nonce aad data : ListU8}

/-- With a nonce of the default length an encryptor agrees with `seal`. -/
theorem sealAgrees_of_len_eq (hE : E.Documented A) (hc : cipherByAlg E.lib alg = some c)
    (haead : c.isAead = true) (hccm : c.isCcm = false) (hlen : nonce.len = E.lib.ivLength c) :
    SealAgrees E alg key nonce aad data := by
  intro padding calls r hsplits hr
  obtain ⟨halloc, -, haad, hdata, -, rfl⟩ := (aeadSeal_eq_ok_iff hE hc haead hccm).mp hr
  have hacc : ∀ i ∈ calls, i.evpCall.Acceptable E.lib c true := by
    intro i hi
    obtain ⟨hle, hle'⟩ := hsplits.length_le (List.mem_map_of_mem hi)
    cases i with
    | setAad l =>
      simp only [EncryptorCall.evpCall, EvpCall.updateList, EvpCall.aad, ListU8.length_bytes] at hle
      exact (cInt_nonneg_iff l.len_lt).mpr (by omega)
    | update l =>
      simp only [EncryptorCall.evpCall, EvpCall.updateList, EvpCall.data, Option.getD_some,
        ListU8.length_bytes] at hle'
      exact (cInt_nonneg_iff l.len_lt).mpr (by omega)
  have hrun := Encryptor.run_eq hE hc haead hccm halloc key nonce padding hsplits hacc
  rwa [ListU8.readBytes_eq_bytes hlen] at hrun

/-- With a nonce of the default length a decryptor agrees with `open`, on lists that `open`
takes. -/
theorem openAgrees_of_len_eq (hE : E.Documented A) (hc : cipherByAlg E.lib alg = some c)
    (haead : c.isAead = true) (hccm : c.isCcm = false) (hnonce : NonceAccepted E.lib c nonce)
    (hlen : nonce.len = E.lib.ivLength c) (haad : aad.len < 2 ^ 31) (hdata : data.len < 2 ^ 31) :
    OpenAgrees E alg key nonce aad data := by
  intro padding calls tag pt hsplits htag t
  have hopen : aeadOpen E alg key nonce aad data tag = .ok pt ↔ _ :=
    aeadOpen_eq_ok_iff hE hc haead hccm
  cases halloc : E.alloc with
  | false =>
    -- neither has a context to work on
    have hidle : E.Idle (constructorDecryptor E alg key (some nonce) padding).ctx := by
      simp only [constructorDecryptor, constructorCtx, hc, ctxNew_eq_none.mpr halloc]
      rfl
    constructor
    · intro h
      obtain ⟨halloc', -⟩ := hopen.mp h
      rw [halloc] at halloc'
      cases halloc'
    · rintro ⟨-, last, hlast, -⟩
      exact absurd hlast ((Decryptor.run_idle hE hidle calls).2 last)
  | true =>
    have hacc : ∀ i ∈ calls, i.tag = none → i.evpCall.Acceptable E.lib c false := by
      intro i hi hnone
      obtain ⟨hle, hle'⟩ := hsplits.length_le (List.mem_map_of_mem hi)
      cases i with
      | setAad l =>
        simp only [DecryptorCall.evpCall, EvpCall.updateList, EvpCall.aad, ListU8.length_bytes]
          at hle
        exact (cInt_nonneg_iff l.len_lt).mpr (by omega)
      | setTag l => cases hnone
      | update l =>
        simp only [DecryptorCall.evpCall, EvpCall.updateList, EvpCall.data, Option.getD_some,
          ListU8.length_bytes] at hle'
        exact (cInt_nonneg_iff l.len_lt).mpr (by omega)
    have hrun : (AllOk t.1 ∧ ∃ last, t.2.finish E = .ok last ∧ outputs t.1 ++ last = pt) ↔ _ :=
      Decryptor.run_eq_ok_iff hE hc haead hccm halloc key nonce padding hsplits htag hacc
    rw [ListU8.readBytes_eq_bytes hlen] at hrun
    refine hopen.trans (Iff.trans ?_ hrun.symm)
    simp only [halloc, hnonce, haad, hdata, true_and]

end

/-! ## Nonces of another length -/

/-- A list of one byte. -/
def singleByte (b : Byte) : ListU8 := ListU8.ofBytes [b] (by rw [List.length_singleton]; decide) 0

@[simp] theorem bytes_singleByte (b : Byte) : (singleByte b).bytes = [b] :=
  ListU8.bytes_ofBytes _ _ _

/-- Hand over additional data, data and tag to a decryptor, one byte at a time. -/
def bytewise (aad data : List Byte) (tag : ListU8) : List DecryptorCall :=
  aad.map (fun b => .setAad (singleByte b)) ++ data.map (fun b => .update (singleByte b)) ++
    [.setTag tag]

theorem splits_bytewise (aad data : List Byte) (tag : ListU8) :
    Splits ((bytewise aad data tag).map DecryptorCall.evpCall) aad data where
  aadFirst := by
    have hall : ∀ l : List Byte, l.Pairwise fun _ _ => True :=
      fun l => List.pairwise_of_forall fun _ _ => trivial
    simp [AadFirst, bytewise, DecryptorCall.evpCall, List.pairwise_append, List.pairwise_map,
      EvpCall.updateList, EvpCall.setTagList, EvpCall.isData, EvpCall.isAad, hall]
  aad := by
    simp [bytewise, List.flatMap_map, DecryptorCall.evpCall, EvpCall.updateList,
      EvpCall.setTagList, EvpCall.aad]
  data := by
    simp [bytewise, List.flatMap_map, DecryptorCall.evpCall, EvpCall.updateList,
      EvpCall.setTagList, EvpCall.data]

theorem givesTag_bytewise (aad data : List Byte) (tag : ListU8) :
    GivesTag (bytewise aad data tag) tag := by
  refine ⟨_, [], rfl, ?_⟩
  simp only [List.append_nil, List.mem_append, List.mem_map]
  rintro i (⟨b, -, rfl⟩ | ⟨b, -, rfl⟩) <;> rfl

/-- EVP takes pieces of one byte. -/
theorem acceptable_bytewise (L : Libcrypto) (c : EvpCipher) (aad data : List Byte) (tag : ListU8) :
    ∀ i ∈ bytewise aad data tag, i.tag = none → i.evpCall.Acceptable L c false := by
  intro i hi hnone
  simp only [bytewise, List.mem_append, List.mem_map, List.mem_singleton] at hi
  rcases hi with (⟨b, -, rfl⟩ | ⟨b, -, rfl⟩) | rfl
  · show 0 ≤ cInt 1
    decide
  · show 0 ≤ cInt 1
    decide
  · cases hnone

theorem length_markedTag (key : List Byte) (iv : Option (List Byte)) (c : EvpCipher)
    (key' : List Byte) (iv' : Option (List Byte)) (aad data : List Byte) (n : ℕ) :
    (markedTag key iv c key' iv' aad data n).length = n := by
  unfold markedTag
  split <;> exact List.length_replicate

/-- A tag tells whether key and nonce are the marked ones. -/
theorem eq_of_markedTag {key key' aad data aad' data' : List Byte} {iv iv' : Option (List Byte)}
    {c : EvpCipher} {n : ℕ} (hn : n ≠ 0)
    (h : markedTag key iv c key' iv' aad data n = markedTag key iv c key iv aad' data' n) :
    key' = key ∧ iv' = iv := by
  by_contra hne
  have hones : markedTag key iv c key iv aad' data' n = List.replicate n 1 := if_pos ⟨rfl, rfl⟩
  have hzeros : markedTag key iv c key' iv' aad data n = List.replicate n 0 := if_neg hne
  have heq := hzeros.symm.trans (h.trans hones)
  rw [List.replicate_inj] at heq
  rcases heq.2 with h0 | h01
  · exact hn h0
  · cases h01

/-- If streaming and the one-shot calls agree on a nonce, EVP reads the same nonce in both, and no
list is longer than an `int` can say. -/
theorem SplitsAgree.len_eq {L : Libcrypto} {alg : Algorithm} {nonce aad data : ListU8}
    (h : SplitsAgree L alg nonce aad data) {c : EvpCipher} (hc : cipherByAlg L alg = some c)
    (haead : c.isAead = true) (hccm : c.isCcm = false) (hnonce : NonceAccepted L c nonce) :
    nonce.len = L.ivLength c ∧ aad.len < 2 ^ 31 ∧ data.len < 2 ^ 31 := by
  have hkeyLt := L.keyLength_lt c
  let key := ListU8.ofBytes (List.replicate (L.keyLength c) 0)
    (by rw [List.length_replicate]; omega) 0
  have hkey : key.len = L.keyLength c := List.length_replicate
  -- tags of ones for this nonce as it was given, of zeros for all others
  let authTag := markedTag key.bytes (some nonce.bytes)
  let tag := ListU8.ofBytes
    (authTag c key.bytes (some (readBytes nonce.ptr (L.ivLength c))) aad.bytes data.bytes 16)
    (by rw [length_markedTag]; decide) 0
  have htagLen : tag.len = 16 := length_markedTag _ _ _ _ _ _ _ _
  have hE := referenceEvp_documented L authTag
  -- the decryptor accepts the tag of the bytes that it reads
  have hrun := (Decryptor.run_eq_ok_iff hE hc haead hccm rfl key nonce .none
    (splits_bytewise aad.bytes data.bytes tag)
    (givesTag_bytewise aad.bytes data.bytes tag) (acceptable_bytewise _ _ _ _ _)).mpr
    ⟨⟨by rw [htagLen]; decide, by rw [htagLen]; exact L.acceptsTagLen_16 c haead⟩, ?_, rfl⟩
  · have hopen := ((h c hc hnonce _ _ rfl hE key hkey).2 .none _ tag _
      (splits_bytewise aad.bytes data.bytes tag)
      (givesTag_bytewise aad.bytes data.bytes tag)).mpr hrun
    obtain ⟨-, -, haad, hdata, -, htag, -⟩ := (aeadOpen_eq_ok_iff hE hc haead hccm).mp hopen
    refine ⟨?_, haad, hdata⟩
    -- so it accepts the tag of the nonce that was given
    rw [htagLen] at htag
    have hmarked : authTag c key.bytes (some (readBytes nonce.ptr (L.ivLength c))) aad.bytes
        data.bytes 16 = authTag c key.bytes (some nonce.bytes) aad.bytes data.bytes 16 :=
      calc _ = tag.bytes := (ListU8.bytes_ofBytes _ _ _).symm
        _ = authTag c (readBytes key.ptr (L.keyLength c)) (some nonce.bytes) aad.bytes
              data.bytes 16 := htag
        _ = _ := by rw [ListU8.readBytes_eq_bytes hkey]
    have hiv := (eq_of_markedTag (by decide) hmarked).2
    have hlen := congrArg List.length (Option.some.inj hiv)
    rw [length_readBytes, ListU8.length_bytes] at hlen
    exact hlen.symm
  · rw [htagLen]
    show tag.bytes = authTag c (readBytes key.ptr (L.keyLength c))
      (some (readBytes nonce.ptr (L.ivLength c))) aad.bytes data.bytes 16
    rw [ListU8.readBytes_eq_bytes hkey]
    exact ListU8.bytes_ofBytes _ _ _

/-- Outside CCM, streaming agrees with the one-shot calls on a nonce that these accept exactly if
it has the default length, and neither additional data nor data is longer than an `int` can
say. -/
theorem splitsAgree_iff (L : Libcrypto) {alg : Algorithm} (haead : algIsAead alg = true)
    (hccm : isCcm alg = false) (nonce aad data : ListU8) :
    SplitsAgree L alg nonce aad data ↔
      ∀ c, cipherByAlg L alg = some c → NonceAccepted L c nonce →
        nonce.len = L.ivLength c ∧ aad.len < 2 ^ 31 ∧ data.len < 2 ^ 31 := by
  constructor
  · intro h c hc hnonce
    exact h.len_eq hc ((algIsAead_eq hc).symm.trans haead) ((isCcm_eq hc).symm.trans hccm) hnonce
  · rintro h c hc hnonce E A rfl hE key -
    obtain ⟨hlen, haad, hdata⟩ := h c hc hnonce
    have hcAead := (algIsAead_eq hc).symm.trans haead
    have hcCcm := (isCcm_eq hc).symm.trans hccm
    exact ⟨sealAgrees_of_len_eq hE hc hcAead hcCcm hlen,
      openAgrees_of_len_eq hE hc hcAead hcCcm hnonce hlen haad hdata⟩

/-- AES-128-GCM with a nonce of twelve bytes: streaming agrees with the one-shot calls. -/
theorem splitsAgree_aes128Gcm :
    SplitsAgree openssl .aes128Gcm (ListU8.ofBytes (List.replicate 12 9) (by decide) 0)
      (ListU8.ofBytes [1, 2, 3] (by decide) 0) (ListU8.ofBytes [4, 5] (by decide) 0) := by
  refine (splitsAgree_iff openssl rfl rfl _ _ _).mpr ?_
  rintro c ⟨rfl⟩ -
  exact ⟨rfl, by decide, by decide⟩

/-- AES-128-GCM with a nonce of sixteen bytes, which `seal` accepts: streaming reads only twelve of
them. -/
theorem not_splitsAgree_long_nonce :
    NonceAccepted openssl (.aes .k128 .gcm)
        (ListU8.ofBytes (List.replicate 16 9) (by decide) 0) ∧
      ¬SplitsAgree openssl .aes128Gcm (ListU8.ofBytes (List.replicate 16 9) (by decide) 0)
        (ListU8.ofBytes [] (by decide) 0) (ListU8.ofBytes [] (by decide) 0) := by
  have hnonce : NonceAccepted openssl (.aes .k128 .gcm)
      (ListU8.ofBytes (List.replicate 16 9) (by decide) 0) := ⟨by decide, rfl⟩
  refine ⟨hnonce, fun h => ?_⟩
  obtain ⟨hlen, -⟩ := h.len_eq rfl rfl rfl hnonce
  exact absurd hlen (by decide)

end OpenSSLWasm.Cipher
