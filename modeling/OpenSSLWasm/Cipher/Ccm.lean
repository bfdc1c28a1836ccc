import OpenSSLWasm.Cipher.Aead

/-!
# Sealing and opening in CCM mode

CCM wants its calls in an order: first the lengths of nonce and tag, then the key, then the total
length of the data, then the additional data, and then all data at once. What is assumed about it
is assumed for contexts that were used in this order, which are those of `seal` and `open`.

## Main definitions

* `CcmState`: what the calls on a context have told it, with the length of the tag and of the data;
* `CcmState.Takes`: the order;
* `Evp.Reaches`: the contexts that were used in order;
* `Evp.DocumentedCcm`: the documented behaviour of CCM.

## Main results

* `ccm_of_aeadSeal`: what a successful `seal` computes;
* `aeadOpen_ccm`: `open` gives back what has the right tag.
-/

namespace OpenSSLWasm.Cipher

theorem EvpCipher.isAead_of_isCcm {c : EvpCipher} (h : c.isCcm = true) : c.isAead = true := by
  rcases c with ⟨size, mode⟩ | _ | _ | _ | _ | _ | _ | _ | _
  case aes => cases mode <;> first | rfl | cases h
  all_goals cases h

/-! ## The order of calls -/

/-- The lengths that CCM goes by. -/
structure CcmRules where
  /-- The length of a tag unless another one is set. -/
  defaultTagLen : EvpCipher → ℕ
  /-- So many bytes can be processed with a nonce of a given length. -/
  fits : EvpCipher → ℕ → ℕ → Bool

/-- What a context has been told, the length of the tag, and the total length if it was
announced. -/
structure CcmState where
  session : Session := {}
  tagLen : ℕ := 0
  announced : Option ℕ := none

namespace CcmState

/-- The effect of a successful call. -/
def next (L : Libcrypto) (R : CcmRules) (s : CcmState) (d : EvpCall) : CcmState where
  session := s.session.next L d
  tagLen :=
    match d with
    | .init _ (some c) _ _ => R.defaultTagLen c
    | .setTag n _ => n.toNat
    | _ => s.tagLen
  announced :=
    match d with
    | .init .. => none
    | .update false none n => some n.toNat
    | _ => s.announced

@[simp] theorem session_next (L : Libcrypto) (R : CcmRules) (s : CcmState) (d : EvpCall) :
    (s.next L R d).session = s.session.next L d := rfl

/-- The calls that are next in the order. -/
def Takes (s : CcmState) : EvpCall → Prop
  | .init _ (some _) _ _ | .setPadding _ => True
  | .init _ none _ _ | .setIvLen _ | .setTag _ _ => s.session.key = none
  | .update false none _ =>
    s.session.key.isSome = true ∧ s.session.aad = [] ∧ s.session.started = false
  | .update false (some _) _ =>
    s.announced.isSome = true ∧ s.session.aad = [] ∧ s.session.started = false
  | .update true _ _ => s.session.key.isSome = true ∧ s.session.started = false
  | .final => s.session.started = true
  | .getTag _ => s.session.finished = true

/-- The context runs a cipher in CCM mode. -/
structure Runs (s : CcmState) (c : EvpCipher) : Prop where
  cipher : s.session.cipher = some c
  isCcm : c.isCcm = true

end CcmState

namespace Evp

variable (E : Evp) (R : CcmRules)

/-- What the successful calls of a history have told the context. -/
def ccmState : History → CcmState
  | [] => {}
  | d :: h => if (E.call (some h) d).ret = 1 then (ccmState h).next E.lib R d else ccmState h

/-- The calls of a history came in the order. -/
def InOrder : History → Prop
  | [] => True
  | d :: h => InOrder h ∧ (E.ccmState R h).Takes d

/-- Calls in the order lead to a state. -/
structure Reaches (h : History) (s : CcmState) : Prop where
  inOrder : E.InOrder R h
  state : E.ccmState R h = s

variable {E R} {h : History} {s : CcmState} {d : EvpCall}

theorem session_eq_of_ccmState (h : History) : (E.ccmState R h).session = E.session h := by
  induction h with
  | nil => rfl
  | cons d h ih =>
    rw [ccmState, session]
    split_ifs
    · rw [CcmState.session_next, ih]
    · exact ih

theorem Reaches.session (hs : E.Reaches R h s) : E.session h = s.session := by
  rw [← session_eq_of_ccmState (R := R), hs.state]

theorem reaches_nil : E.Reaches R [] {} := ⟨trivial, rfl⟩

/-- A call that succeeds. -/
theorem Reaches.cons (hs : E.Reaches R h s) (hret : (E.call (some h) d).ret = 1)
    (htakes : s.Takes d) : E.Reaches R (d :: h) (s.next E.lib R d) := by
  refine ⟨⟨hs.inOrder, ?_⟩, ?_⟩
  · rw [hs.state]
    exact htakes
  · rw [ccmState, if_pos hret, hs.state]

/-- A call that fails leaves the state as it is. -/
theorem Reaches.cons_of_ne (hs : E.Reaches R h s) (hret : (E.call (some h) d).ret ≠ 1)
    (htakes : s.Takes d) : E.Reaches R (d :: h) s := by
  refine ⟨⟨hs.inOrder, ?_⟩, ?_⟩
  · rw [hs.state]
    exact htakes
  · rw [ccmState, if_neg hret, hs.state]

end Evp

/-- The documented behaviour of CCM for calls in the order. -/
structure Evp.DocumentedCcm (E : Evp) (A : Aead) (R : CcmRules) : Prop where
  acceptsTagLen_default : ∀ {c}, c.isCcm = true →
    E.lib.acceptsTagLen c (R.defaultTagLen c) = true
  /-- The length of a tag is set for encryption, and a tag for decryption. -/
  setTag : ∀ {h s c n tag}, E.Reaches R h s → s.Runs c → s.Takes (.setTag n tag) →
    tag.isNone = s.session.enc →
    ((E.call (some h) (.setTag n tag)).ret = 1 ↔ 0 ≤ n ∧ E.lib.acceptsTagLen c n.toNat = true)
  announce : ∀ {h s c n}, E.Reaches R h s → s.Runs c → s.Takes (.update false none n) → 0 ≤ n →
    R.fits c s.session.ivLen n.toNat = true → (E.call (some h) (.update false none n)).ret = 1
  updateAad : ∀ {h s c inp n}, E.Reaches R h s → s.Runs c → s.Takes (.update false (some inp) n) →
    0 ≤ n → (E.call (some h) (.update false (some inp) n)).ret = 1
  /-- Additional data is refused as long as the total length is not known. -/
  announced_of_updateAad : ∀ {h s c inp n}, E.Reaches R h s → s.Runs c →
    (E.call (some h) (.update false (some inp) n)).ret = 1 → inp ≠ [] → s.announced.isSome = true
  /-- The data is encrypted at once. -/
  encrypt : ∀ {h s c key inp}, E.Reaches R h s → s.Runs c →
    s.Takes (.update true (some inp) inp.length) → s.session.enc = true →
    s.session.key = some key → (E.call (some h) (.update true (some inp) inp.length)).ret = 1 →
    R.fits c s.session.ivLen inp.length = true ∧
      (E.call (some h) (.update true (some inp) inp.length)).out =
        A.encrypt c key s.session.iv s.session.aad inp
  /-- The data is decrypted at once, if its length was announced and its tag is right. -/
  decrypt : ∀ {h s c key tag inp}, E.Reaches R h s → s.Runs c →
    s.Takes (.update true (some inp) inp.length) → s.session.enc = false →
    s.session.key = some key → s.announced = some inp.length →
    R.fits c s.session.ivLen inp.length = true → s.session.tag = some tag →
    tag = A.authTag c key s.session.iv s.session.aad inp s.tagLen →
    (E.call (some h) (.update true (some inp) inp.length)).ret = 1 ∧
      (E.call (some h) (.update true (some inp) inp.length)).out =
        A.decrypt c key s.session.iv s.session.aad inp
  /-- Nothing is held back for Final. -/
  final_out : ∀ {h s c}, E.Reaches R h s → s.Runs c → s.Takes .final →
    (E.call (some h) .final).ret = 1 → (E.call (some h) .final).out = []
  /-- The tag can be had in its own length only. -/
  getTag : ∀ {h s c key n}, E.Reaches R h s → s.Runs c → s.Takes (.getTag n) →
    s.session.enc = true → s.session.key = some key → (E.call (some h) (.getTag n)).ret = 1 →
    n = s.tagLen ∧ (E.call (some h) (.getTag n)).out =
      A.authTag c key s.session.iv s.session.aad
        (A.encrypt c key s.session.iv s.session.aad s.session.data) s.tagLen

section

variable {E : Evp} {A : Aead} {R : CcmRules} {alg : Algorithm} {c : EvpCipher}
  {key nonce aad : ListU8} {h : History} {s : CcmState}

/-! ## The setup -/

/-- The state after the setup: whether the tag or its length was accepted shows in both. -/
def keyedState (L : Libcrypto) (R : CcmRules) (enc : Bool) (c : EvpCipher) (key nonce : ListU8)
    (n : ℤ) (tag : Option (List Byte)) : CcmState where
  session :=
    { cipher := some c
      enc
      ivLen := nonce.len
      key := some (readBytes key.ptr (L.keyLength c))
      iv := some nonce.bytes
      tag := if 0 ≤ n ∧ L.acceptsTagLen c n.toNat = true then tag else none }
  tagLen := if 0 ≤ n ∧ L.acceptsTagLen c n.toNat = true then n.toNat else R.defaultTagLen c

theorem reaches_keyedHistory (hE : E.Documented A) (hC : E.DocumentedCcm A R)
    (hccm : c.isCcm = true) (hnonce : NonceAccepted E.lib c nonce) (key : ListU8) {enc : Bool}
    (n : ℤ) {tag : Option (List Byte)} (htag : tag.isNone = enc) :
    E.Reaches R (keyedHistory E enc c key nonce (some (.setTag n tag)))
      (keyedState E.lib R enc c key nonce n tag) := by
  have haead := EvpCipher.isAead_of_isCcm hccm
  have hlen : (cInt nonce.len).toNat = nonce.len := cInt_toNat_of_lt hnonce.len_lt
  -- the cipher first, then the lengths, and the key only then
  have hnamed : E.Reaches R [.init enc (some c) none none] _ :=
    Evp.reaches_nil.cons (hE.init rfl haead) trivial
  have hsized := hnamed.cons ((setIvLen_ret_iff hE haead enc).mpr hnonce) rfl
  have hsetTag := hC.setTag (n := n) hsized ⟨rfl, hccm⟩ rfl htag
  -- whether the tag is accepted or not, the key can be set
  have hkeyed : ∀ {m : ℕ} {t : Option (List Byte)} {l : ℕ}, m = nonce.len →
      E.Reaches R (setupHistory enc c nonce (some (.setTag n tag)))
        { session := { cipher := some c, enc, ivLen := m, tag := t }, tagLen := l } →
      E.Reaches R (keyedHistory E enc c key nonce (some (.setTag n tag)))
        { session :=
            { cipher := some c
              enc
              ivLen := nonce.len
              key := some (readBytes key.ptr (E.lib.keyLength c))
              iv := some nonce.bytes
              tag := t }
          tagLen := l } := by
    rintro m t l rfl hs
    have hcipher : (E.session (setupHistory enc c nonce (some (.setTag n tag)))).cipher =
        some c := by
      rw [hs.session]
    rw [keyedHistory, Evp.initCall_none hcipher, hs.session]
    exact hs.cons (hE.init (by rw [hcipher]; rfl) haead) rfl
  rw [keyedState]
  by_cases hacc : 0 ≤ n ∧ E.lib.acceptsTagLen c n.toNat = true
  · have hset := hsized.cons (hsetTag.mpr hacc) rfl
    rw [if_pos hacc, if_pos hacc]
    rcases tag with _ | tag <;> exact hkeyed hlen hset
  · rw [if_neg hacc, if_neg hacc]
    exact hkeyed hlen (hsized.cons_of_ne (mt hsetTag.mp hacc) rfl)

/-- With a tag whose length is accepted, the context has it. -/
theorem keyedState_of_accepts {L : Libcrypto} {enc : Bool} {tag : ListU8}
    (hlen : tag.len < 2 ^ 31) (hacc : L.acceptsTagLen c tag.len = true) :
    keyedState L R enc c key nonce (cInt tag.len) (some tag.bytes) =
      { session :=
          { cipher := some c
            enc
            ivLen := nonce.len
            key := some (readBytes key.ptr (L.keyLength c))
            iv := some nonce.bytes
            tag := some tag.bytes }
        tagLen := tag.len } := by
  have hnat : (cInt tag.len).toNat = tag.len := cInt_toNat_of_lt hlen
  have hacc' : 0 ≤ cInt tag.len ∧ L.acceptsTagLen c (cInt tag.len).toNat = true :=
    ⟨(cInt_nonneg_iff tag.len_lt).mpr hlen, by rwa [hnat]⟩
  rw [keyedState, if_pos hacc', if_pos hacc', hnat]

/-- A length that was refused leaves the default one; if the tag has the length that was asked for
all the same, it was not refused. -/
theorem accepts_of_tagLen (hC : E.DocumentedCcm A R) (hccm : c.isCcm = true) {n : ℤ}
    (hn : n = ((if 0 ≤ n ∧ E.lib.acceptsTagLen c n.toNat = true then n.toNat
      else R.defaultTagLen c : ℕ) : ℤ)) :
    0 ≤ n ∧ E.lib.acceptsTagLen c n.toNat = true := by
  by_contra hne
  have hdefault : n = (R.defaultTagLen c : ℤ) := hn.trans (congrArg Nat.cast (if_neg hne))
  refine hne ?_
  rw [hdefault, Int.toNat_natCast]
  exact ⟨Int.natCast_nonneg _, hC.acceptsTagLen_default hccm⟩

/-! ## The data -/

/-- The total length and the additional data, if that is accepted. -/
theorem reaches_aadHistory (hC : E.DocumentedCcm A R) (halg : isCcm alg = true)
    (aad data : ListU8)
    (hs : E.Reaches R h s) (hruns : s.Runs c) (hkey : s.session.key.isSome = true)
    (haad : s.session.aad = []) (hstarted : s.session.started = false)
    (hret : aad.len ≠ 0 → (E.call (some (.update false none (cInt data.len) :: h))
      (.updateList false aad)).ret = 1) :
    ∃ announced, E.Reaches R (aadHistory alg aad data h)
        { s with session := { s.session with aad := aad.bytes }, announced } ∧
      ((E.call (some h) (.update false none (cInt data.len))).ret = 1 →
        announced = some (cInt data.len).toNat) := by
  -- the total length may be refused, which nobody notices
  have hannounced : ∃ announced,
      E.Reaches R (.update false none (cInt data.len) :: h) { s with announced } ∧
        ((E.call (some h) (.update false none (cInt data.len))).ret = 1 →
          announced = some (cInt data.len).toNat) := by
    by_cases hann : (E.call (some h) (.update false none (cInt data.len))).ret = 1
    · exact ⟨_, hs.cons hann ⟨hkey, haad, hstarted⟩, fun _ => rfl⟩
    · exact ⟨_, hs.cons_of_ne hann ⟨hkey, haad, hstarted⟩, fun h => absurd h hann⟩
  obtain ⟨announced, hreach, hvalue⟩ := hannounced
  refine ⟨announced, ?_, hvalue⟩
  by_cases hlen : aad.len = 0
  · -- empty additional data is left out, and would have added nothing
    have hnil : aad.bytes = [] := List.length_eq_zero_iff.mp (by rw [ListU8.length_bytes, hlen])
    simp only [aadHistory, halg, hlen, hnil, ← haad, if_true, ne_eq, not_true_eq_false, if_false]
    exact hreach
  · have hne : aad.bytes ≠ [] := by
      rw [← List.length_pos_iff, ListU8.length_bytes]
      exact Nat.pos_of_ne_zero hlen
    have hknown := hC.announced_of_updateAad hreach ⟨hruns.cipher, hruns.isCcm⟩ (hret hlen) hne
    have hdone := hreach.cons (hret hlen) ⟨hknown, haad, hstarted⟩
    simp only [aadHistory, halg, hlen, ne_eq, not_false_eq_true, if_true]
    refine ⟨hdone.inOrder, hdone.state.trans ?_⟩
    simp only [CcmState.next, EvpCall.updateList, Session.next, haad, hstarted, List.nil_append,
      Bool.or_false]

/-- An update with a list whose length is an `int`. -/
theorem updateList_eq {l : ListU8} (h : l.len < 2 ^ 31) (out : Bool) :
    EvpCall.updateList out l = .update out (some l.bytes) l.bytes.length := by
  rw [EvpCall.updateList, cInt_of_lt h, ListU8.length_bytes]

theorem len_lt_of_updateList (hE : E.Documented A) {out : Bool} {l : ListU8}
    (hret : (E.call (some h) (.updateList out l)).ret = 1) : l.len < 2 ^ 31 := by
  rw [← cInt_nonneg_iff l.len_lt]
  by_contra hneg
  exact hE.update_neg (Int.not_le.mp hneg) hret

/-! ## Sealing and opening -/

/-- What a successful `seal` computes. The tag has the length that was asked for, as no other can be
had. -/
theorem ccm_of_aeadSeal (hE : E.Documented A) (hC : E.DocumentedCcm A R)
    (hc : cipherByAlg E.lib alg = some c) (hccm : c.isCcm = true) {plaintext : ListU8}
    {tagLen : BitVec 32} {r : AeadSealed}
    (hseal : aeadSeal E alg key nonce aad plaintext tagLen = .ok r) :
    E.alloc = true ∧ NonceAccepted E.lib c nonce ∧ aad.len < 2 ^ 31 ∧ plaintext.len < 2 ^ 31 ∧
      R.fits c nonce.len plaintext.len = true ∧
      (0 ≤ cInt tagLen.toNat ∧ E.lib.acceptsTagLen c (cInt tagLen.toNat).toNat = true) ∧
      let k := readBytes key.ptr (E.lib.keyLength c)
      let ct := A.encrypt c k (some nonce.bytes) aad.bytes plaintext.bytes
      r = { ciphertext := ct
            tag := A.authTag c k (some nonce.bytes) aad.bytes ct (cInt tagLen.toNat).toNat } := by
  have halg : isCcm alg = true := (isCcm_eq hc).trans hccm
  obtain ⟨c', hc', -, halloc, ctx', hbody⟩ := aeadSeal_eq_ok.mp hseal
  obtain rfl := Option.some.inj (hc.symm.trans hc')
  rw [sealBody, if_pos halg, aeadSetup_bind_iff hE (EvpCipher.isAead_of_isCcm hccm)
    (by rintro _ ⟨⟩; exact ⟨_, _, rfl⟩), aeadUpdate_bind_eq_ok] at hbody
  obtain ⟨hnonce, haadRet, hdataRet, hrest⟩ := hbody
  simp only [EvpM.expect_bind_eq_ok, EvpM.pure_eq_ok, Ctx.push_some] at hrest
  obtain ⟨hfinalRet, htagRet, rfl, -⟩ := hrest
  rw [if_pos halg] at haadRet
  have hlen := len_lt_of_updateList hE hdataRet
  have hkeyed := reaches_keyedHistory hE hC hccm hnonce key (cInt tagLen.toNat)
    (show (none : Option (List Byte)).isNone = true from rfl)
  obtain ⟨announced, hready, -⟩ := reaches_aadHistory hC halg aad plaintext hkeyed ⟨rfl, hccm⟩ rfl
    rfl rfl haadRet
  rw [updateList_eq hlen] at hdataRet hfinalRet htagRet ⊢
  -- all data at once, then the tag
  obtain ⟨hfits, hct⟩ := hC.encrypt hready ⟨rfl, hccm⟩ ⟨rfl, rfl⟩ rfl rfl hdataRet
  have hdone := hready.cons hdataRet ⟨rfl, rfl⟩
  have hfinal := hC.final_out hdone ⟨rfl, hccm⟩ rfl hfinalRet
  obtain ⟨htagLen, htag⟩ := hC.getTag (hdone.cons hfinalRet rfl) ⟨rfl, hccm⟩ rfl rfl rfl htagRet
  have hacc := accepts_of_tagLen hC hccm htagLen
  refine ⟨halloc, hnonce, ?_, hlen, ?_, hacc, ?_⟩
  · rcases Nat.eq_zero_or_pos aad.len with hzero | hpos
    · omega
    · exact len_lt_of_updateList hE (haadRet (Nat.ne_of_gt hpos))
  · rwa [ListU8.length_bytes] at hfits
  · rw [AeadSealed.mk.injEq]
    refine ⟨?_, htag.trans ?_⟩
    · rw [hct, hfinal, List.append_nil]
      rfl
    · exact congrArg _ (if_pos hacc)

/-- The state in which `open` hands over the ciphertext: additional data was accepted, as the
length of a ciphertext that fits was announced. -/
theorem reaches_openHistory (hE : E.Documented A) (hC : E.DocumentedCcm A R)
    (halg : isCcm alg = true) (hccm : c.isCcm = true) (hnonce : NonceAccepted E.lib c nonce)
    (haad : aad.len < 2 ^ 31) {ciphertext tag : ListU8} (hlen : ciphertext.len < 2 ^ 31)
    (hfits : R.fits c nonce.len ciphertext.len = true) (htagLen : tag.len < 2 ^ 31)
    (hacc : E.lib.acceptsTagLen c tag.len = true) (key : ListU8) :
    let h := keyedHistory E false c key nonce (some (.setTagList tag))
    (E.call (some (.update false none (cInt ciphertext.len) :: h)) (.updateList false aad)).ret = 1 ∧
      E.Reaches R (aadHistory alg aad ciphertext h)
        { session :=
            { cipher := some c
              enc := false
              ivLen := nonce.len
              key := some (readBytes key.ptr (E.lib.keyLength c))
              iv := some nonce.bytes
              aad := aad.bytes
              tag := some tag.bytes }
          tagLen := tag.len
          announced := some ciphertext.bytes.length } := by
  intro h
  have hkeyed : E.Reaches R h _ :=
    reaches_keyedHistory hE hC hccm hnonce key (cInt tag.len)
      (show (some tag.bytes).isNone = false from rfl)
  rw [keyedState_of_accepts htagLen hacc] at hkeyed
  -- the length is announced, so that additional data is accepted
  have hann := hC.announce hkeyed ⟨rfl, hccm⟩ ⟨rfl, rfl, rfl⟩
    ((cInt_nonneg_iff ciphertext.len_lt).mpr hlen) (by rw [cInt_toNat_of_lt hlen]; exact hfits)
  have haadRet : (E.call (some _) (.updateList false aad)).ret = 1 :=
    hC.updateAad (hkeyed.cons hann ⟨rfl, rfl, rfl⟩) ⟨rfl, hccm⟩ ⟨rfl, rfl, rfl⟩
      ((cInt_nonneg_iff aad.len_lt).mpr haad)
  obtain ⟨announced, hready, hvalue⟩ := reaches_aadHistory hC halg aad ciphertext hkeyed
    ⟨rfl, hccm⟩ rfl rfl rfl fun _ => haadRet
  have hannounced : announced = some ciphertext.bytes.length := by
    rw [hvalue hann, cInt_toNat_of_lt hlen, ListU8.length_bytes]
  rw [hannounced] at hready
  exact ⟨haadRet, hready⟩

/-- `open` decrypts a ciphertext that fits, with its tag. -/
theorem aeadOpen_ccm (hE : E.Documented A) (hC : E.DocumentedCcm A R)
    (hc : cipherByAlg E.lib alg = some c) (hccm : c.isCcm = true) (halloc : E.alloc = true)
    (hnonce : NonceAccepted E.lib c nonce) (haad : aad.len < 2 ^ 31) {ciphertext tag : ListU8}
    (hlen : ciphertext.len < 2 ^ 31) (hfits : R.fits c nonce.len ciphertext.len = true)
    (htagLen : tag.len < 2 ^ 31) (hacc : E.lib.acceptsTagLen c tag.len = true)
    (htag : tag.bytes = A.authTag c (readBytes key.ptr (E.lib.keyLength c)) (some nonce.bytes)
      aad.bytes ciphertext.bytes tag.len) :
    aeadOpen E alg key nonce aad ciphertext tag =
      .ok (A.decrypt c (readBytes key.ptr (E.lib.keyLength c)) (some nonce.bytes) aad.bytes
        ciphertext.bytes) := by
  have halg : isCcm alg = true := (isCcm_eq hc).trans hccm
  have haead := EvpCipher.isAead_of_isCcm hccm
  obtain ⟨haadRet, hready⟩ :=
    reaches_openHistory hE hC halg hccm hnonce haad hlen hfits htagLen hacc key
  obtain ⟨hdataRet, hpt⟩ := hC.decrypt hready ⟨rfl, hccm⟩ ⟨rfl, rfl⟩ rfl rfl rfl
    (by rw [ListU8.length_bytes]; exact hfits) rfl htag
  have hdone := hready.cons hdataRet ⟨rfl, rfl⟩
  -- the tag was checked with the data, and the last call has nothing left to do
  have hfinalRet := hE.final_ccm (by rw [hdone.session]; rfl) hccm (by rw [hdone.session]; rfl)
    (by rw [hdone.session]; rfl)
  have hfinal := hC.final_out hdone ⟨rfl, hccm⟩ rfl hfinalRet
  rw [← updateList_eq hlen] at hdataRet hpt hfinalRet hfinal
  refine aeadOpen_eq_ok.mpr ⟨c, hc, (algIsAead_eq hc).trans haead, halloc,
    some (.final :: .updateList true ciphertext :: aadHistory alg aad ciphertext
      (keyedHistory E false c key nonce (some (.setTagList tag)))), ?_⟩
  rw [openBody, if_pos halg, aeadSetup_bind_iff hE haead (by rintro _ ⟨⟩; exact ⟨_, _, rfl⟩),
    aeadUpdate_bind_eq_ok, if_pos halg]
  refine ⟨hnonce, fun _ => haadRet, hdataRet, ?_⟩
  simp only [halg, Bool.not_true, Bool.false_eq_true, if_false, EvpM.expect_bind_eq_ok,
    EvpM.pure_eq_ok, Ctx.push_some]
  refine ⟨hfinalRet, ?_, trivial⟩
  rw [hfinal, List.append_nil]
  exact hpt

end

end OpenSSLWasm.Cipher
