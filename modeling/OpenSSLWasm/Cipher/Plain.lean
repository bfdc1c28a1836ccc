import OpenSSLWasm.Cipher.Buffers
import OpenSSLWasm.Cipher.RoundTrip
import OpenSSLWasm.Cipher.Split

/-!
# Encrypting and decrypting in pieces

The interface encrypts in two ways, at once and with an encryptor that is fed in pieces, and has two
ways to decrypt. However the data was cut, both ways give the same.

## Main definitions

* `EvpCipher.isStreamable` and `PlainCipher`: ciphers outside AEAD, as functions of the whole data;
* `Evp.DocumentedPlain`: the documented behaviour of EVP for them;
* `Feeds`: a resource of such a cipher, whose calls are updates, or refused;
* `Encryptor.result` and `Decryptor.result`: what a streaming resource gives in all.

## Main results

* `oneShot_eq` and `Feeds.run_spec`: what is computed at once, and in pieces;
* `stream_agrees`: the two ways agree, in what they refuse too.
-/

namespace OpenSSLWasm.Cipher

/-! ## Ciphers outside AEAD -/

/-- EVP takes the data of these ciphers in any pieces. An update in XTS mode is a data unit of its
own, so that pieces are not the same as the whole. -/
def EvpCipher.isStreamable : EvpCipher → Bool
  | .aes _ .xts => false
  | c => !c.isAead

/-- The ciphers as functions of direction, key, IV, padding and the whole data. There is nothing for
data that does not end with a block, and when decrypting for padding that is wrong. -/
abbrev PlainCipher :=
  EvpCipher → Bool → List Byte → Option (List Byte) → Bool → List Byte → Option (List Byte)

namespace Evp

variable (E : Evp)

/-- Contexts pad until they are told not to. -/
def padding : History → Bool
  | [] => true
  | .setPadding pad :: h => if (E.call (some h) (.setPadding pad)).ret = 1 then pad else padding h
  | _ :: h => padding h

/-- The documented behaviour of EVP for these ciphers. -/
structure DocumentedPlain (B : PlainCipher) : Prop where
  init : ∀ {c enc key iv}, c.isStreamable = true →
    (E.call (some []) (.init enc (some c) (some key) iv)).ret = 1
  setPadding : ∀ {h c pad}, (E.session h).cipher = some c → c.isStreamable = true →
    (E.call (some h) (.setPadding pad)).ret = 1
  update : ∀ {h c inp n}, (E.session h).cipher = some c → c.isStreamable = true →
    (E.session h).key.isSome = true → (E.session h).finished = false → 0 ≤ n →
    (E.call (some h) (.update true (some inp) n)).ret = 1
  /-- However the data was cut, Final succeeds if there is something for the whole, and then that is
  what was written. -/
  final : ∀ {h c key}, (E.session h).cipher = some c → c.isStreamable = true →
    (E.session h).key = some key → (E.session h).finished = false →
    B c (E.session h).enc key (E.session h).iv (E.padding h) (E.session h).data =
      if (E.call (some h) .final).ret = 1 then some (E.output (.final :: h)) else none

end Evp

theorem EvpCipher.isAead_of_isStreamable {c : EvpCipher} (h : c.isStreamable = true) :
    c.isAead = false := by
  cases c with
  | aes size mode => cases mode <;> first | rfl | cases h
  | chacha20Poly1305 => cases h
  | ariaGcm size => cases h
  | sm4Gcm => cases h
  | _ => rfl

/-! ## Contexts that take data -/

section

variable {E : Evp} {B : PlainCipher} {c : EvpCipher} {h : History}

/-- The session runs such a cipher, and takes data. -/
structure Session.Takes (s : Session) (c : EvpCipher) : Prop where
  cipher : s.cipher = some c
  isStreamable : c.isStreamable = true
  key : s.key.isSome = true
  finished : s.finished = false

/-- The context has been told these, and has written this. -/
structure Evp.At (E : Evp) (h : History) (s : Session) (pad : Bool) (out : List Byte) : Prop where
  session : E.session h = s
  padding : E.padding h = pad
  output : E.output h = out

/-- An update is taken, and tells the context its data. -/
theorem Evp.DocumentedPlain.at_update (hP : E.DocumentedPlain B) {s : Session} {pad : Bool}
    {out : List Byte} (hat : E.At h s pad out) (hs : s.Takes c) {l : ListU8}
    (hl : l.len < 2 ^ 31) :
    (E.call (some h) (.updateList true l)).ret = 1 ∧
      E.At (.updateList true l :: h) { s with data := s.data ++ l.bytes, started := true } pad
        (out ++ (E.call (some h) (.updateList true l)).out) := by
  have hret : (E.call (some h) (.updateList true l)).ret = 1 := by
    obtain ⟨rfl, -, -⟩ := hat
    exact hP.update hs.cipher hs.isStreamable hs.key hs.finished ((cInt_nonneg_iff l.len_lt).mpr hl)
  refine ⟨hret, ?_, hat.padding, ?_⟩
  · rw [Evp.session_cons hret, hat.session]
    rfl
  · rw [Evp.output_cons hret, hat.output]
    rfl

variable {alg : Algorithm} {key : ListU8} {iv : Option ListU8} {padding : PaddingMode}

/-- What a context has been told before any data, for the bytes that EVP reads of key and IV. -/
def plainSession (L : Libcrypto) (enc : Bool) (c : EvpCipher) (key : ListU8) (iv : Option ListU8) :
    Session where
  cipher := some c
  enc := enc
  ivLen := L.ivLength c
  key := some (readBytes key.ptr (L.keyLength c))
  iv := iv.map fun v => readBytes v.ptr (L.ivLength c)

theorem takes_plainSession {L : Libcrypto} {enc : Bool} (hc : c.isStreamable = true) :
    (plainSession L enc c key iv).Takes c :=
  ⟨rfl, hc, rfl, rfl⟩

/-- Both the constructors and the one-shot calls begin with these calls. -/
def startHistory (E : Evp) (enc : Bool) (c : EvpCipher) (key : ListU8) (iv : Option ListU8)
    (padding : PaddingMode) : History :=
  [.setPadding (padding = .pkcs7),
    E.initCall (some []) enc (some c) (some key.ptr) (iv.map ListU8.ptr)]

theorem Evp.DocumentedPlain.at_startHistory (hP : E.DocumentedPlain B)
    (hc : c.isStreamable = true) (enc : Bool) (key : ListU8) (iv : Option ListU8)
    (padding : PaddingMode) :
    let init := E.initCall (some []) enc (some c) (some key.ptr) (iv.map ListU8.ptr)
    (E.call (some []) init).ret = 1 ∧ (E.session [init]).cipher = some c ∧
      E.At (startHistory E enc c key iv padding) (plainSession E.lib enc c key iv)
        (decide (padding = .pkcs7)) [] := by
  intro init
  have hinit : (E.call (some []) init).ret = 1 := hP.init hc
  have hsession : E.session [init] = plainSession E.lib enc c key iv := by
    rw [Evp.session_cons hinit]
    simp [init, plainSession, Evp.initCall_some, Session.next, Function.comp_def]
  have hcipher : (E.session [init]).cipher = some c := by
    rw [hsession]
    rfl
  have hpad : (E.call (some [init]) (.setPadding (padding = .pkcs7))).ret = 1 :=
    hP.setPadding hcipher hc
  refine ⟨hinit, hcipher, ?_, ?_, ?_⟩
  · rw [startHistory, Evp.session_setPadding, hsession]
  · rw [startHistory, Evp.padding, if_pos hpad]
  · rw [startHistory, Evp.output_cons hpad, Evp.output_cons hinit]
    rfl

/-! ## At once -/

/-- What there is for the whole of the data. -/
def Evp.whole (E : Evp) (B : PlainCipher) (enc : Bool) (c : EvpCipher) (key : ListU8)
    (iv : Option ListU8) (padding : PaddingMode) (data : List Byte) : Option (List Byte) :=
  B c enc (readBytes key.ptr (E.lib.keyLength c))
    (iv.map fun v => readBytes v.ptr (E.lib.ivLength c)) (decide (padding = .pkcs7)) data

/-- Final gives what there is for the whole. -/
theorem Evp.DocumentedPlain.whole_eq (hP : E.DocumentedPlain B) (hc : c.isStreamable = true)
    {enc started : Bool} {data out : List Byte}
    (hat : E.At h { plainSession E.lib enc c key iv with data, started }
      (decide (padding = .pkcs7)) out) :
    E.whole B enc c key iv padding data =
      if (E.call (some h) .final).ret = 1 then some (out ++ (E.call (some h) .final).out)
      else none := by
  obtain ⟨hsession, hpad, hout⟩ := hat
  have hkey : (E.session h).key = some (readBytes key.ptr (E.lib.keyLength c)) := by
    rw [hsession]
    rfl
  have hfinal := hP.final (by rw [hsession]; rfl) hc hkey (by rw [hsession]; rfl)
  rw [hsession, hpad] at hfinal
  refine Eq.trans hfinal ?_
  split_ifs with hret
  · rw [Evp.output_cons hret, hout]
    rfl
  · rfl

theorem EvpM.expectKeyLength_bind_of_eq {α : Type} {n : ℤ} {err : CipherError} {f : Unit → EvpM α}
    {ctx : Ctx} (hn : n = E.ctxKeyLength ctx) : (expectKeyLength E n err >>= f) ctx = f () ctx := by
  simp [bind, StateT.bind, Except.bind, expectKeyLength, hn]

theorem EvpM.expect_bind_pure {α : Type} {d : EvpCall} {err : Ctx → CipherError} {f : List Byte → α}
    {ctx : Ctx} :
    ((expect E d err >>= fun out => pure (f out)) : EvpM α).run' ctx =
      if (E.call ctx d).ret = 1 then .ok (f (E.call ctx d).out) else .error (err (ctx.push d)) := by
  split_ifs with h
  · rw [StateT.run', expect_bind_of_ret h]
    rfl
  · rw [StateT.run', expect_bind_of_ret_ne h]
    rfl

/-- A one-shot call computes the cipher on the whole. Decryption fails for want of padding, and for
nothing else. -/
theorem oneShot_eq {A : Aead} (hE : E.Documented A) (hP : E.DocumentedPlain B)
    (hc : cipherByAlg E.lib alg = some c) (hstream : c.isStreamable = true)
    (halloc : E.alloc = true) (hkey : key.len = E.lib.keyLength c) (iv : Option ListU8)
    (padding : PaddingMode) (enc : Bool) {inp : ListU8} (hinp : inp.len < 2 ^ 31) :
    ∃ e, (enc = false → e = .badPadding) ∧
      oneShot E enc alg key iv padding inp =
        (E.whole B enc c key iv padding inp.bytes).elim (.error e) .ok := by
  have haead : algIsAead alg = false :=
    (algIsAead_eq hc).trans (EvpCipher.isAead_of_isStreamable hstream)
  obtain ⟨hinit, hcipher, hat⟩ := hP.at_startHistory hstream enc key iv padding
  obtain ⟨hupdate, hat'⟩ := hP.at_update hat (takes_plainSession hstream) hinp
  have hwhole := hP.whole_eq hstream hat'
  have hkeyLen : cInt key.len = E.ctxKeyLength
      (some [E.initCall (some []) enc (some c) (some key.ptr) (iv.map ListU8.ptr)]) := by
    rw [hE.ctxKeyLength hcipher, hkey, cInt_of_lt (E.lib.keyLength_lt c)]
  let err (ctx : Ctx) : CipherError := if enc then E.internalError ctx else .badPadding
  have hbody : (oneShotBody E enc c key iv padding inp).run' (some []) =
      ((EvpM.expect E .final err >>= fun out => pure
        ((E.call (some (startHistory E enc c key iv padding)) (.updateList true inp)).out ++ out)) :
          EvpM (List Byte)).run'
        (some (.updateList true inp :: startHistory E enc c key iv padding)) := by
    rw [oneShotBody, StateT.run', EvpM.expectInit_bind_of_ret hinit, Ctx.push_some,
      EvpM.expectKeyLength_bind_of_eq hkeyLen, EvpM.perform_bind]
    exact congrArg (Functor.map Prod.fst) (EvpM.expect_bind_of_ret hupdate)
  refine ⟨err (some (.final :: .updateList true inp :: startHistory E enc c key iv padding)),
    fun henc => if_neg (by rw [henc]; decide), ?_⟩
  rw [show E.whole B enc c key iv padding inp.bytes = _ from hwhole]
  simp only [oneShot, hc, haead, Bool.false_eq_true, if_false, ctxNew_of_alloc halloc,
    reduceCtorEq, hbody, EvpM.expect_bind_pure]
  split_ifs
  · rfl
  · rfl

/-! ## In pieces -/

/-- A call on such a resource is refused and does nothing, or is an update of its context. -/
structure Feeds (E : Evp) {R ι : Type} (step : R → ι → Except CipherError (List Byte) × R)
    (P : R → Prop) (ctx : R → Ctx) (piece : ι → Option ListU8) : Prop where
  refused : ∀ {r i}, P r → piece i = none → ∃ e, step r i = (.error e, r)
  update : ∀ {r i l}, P r → piece i = some l →
    (∃ err, (step r i).1 = E.attempt (ctx r) (.updateList true l) err) ∧
      ctx (step r i).2 = (ctx r).push (.updateList true l) ∧ P (step r i).2

/-- The data of calls. -/
def dataOf {ι : Type} (piece : ι → Option ListU8) (calls : List ι) : List Byte :=
  (calls.filterMap piece).flatMap ListU8.bytes

/-- A run tells the context the data of its calls, and answers with what is written. -/
theorem Feeds.run_spec {R ι : Type} {step : R → ι → Except CipherError (List Byte) × R}
    {P : R → Prop} {ctx : R → Ctx} {piece : ι → Option ListU8} (hF : Feeds E step P ctx piece)
    (hP : E.DocumentedPlain B) {r : R} (hr : P r) {s : Session} {pad : Bool} {out : List Byte}
    (hctx : ctx r = some h) (hat : E.At h s pad out) (hs : s.Takes c) (calls : List ι)
    (hcalls : ∀ i ∈ calls, ∀ l ∈ piece i, l.len < 2 ^ 31) :
    P (Transcript.run step r calls).2 ∧
      ∃ h' started, ctx (Transcript.run step r calls).2 = some h' ∧
        E.At h' { s with data := s.data ++ dataOf piece calls, started } pad
          (out ++ outputs (Transcript.run step r calls).1) := by
  induction calls generalizing r h s out with
  | nil =>
    refine ⟨hr, h, s.started, hctx, ?_⟩
    simpa [dataOf, outputs] using hat
  | cons i is ih =>
    have his := fun j hj => hcalls j (List.mem_cons_of_mem i hj)
    rcases hpiece : piece i with _ | l
    · -- nothing happens
      obtain ⟨e, he⟩ := hF.refused hr hpiece
      obtain ⟨hr', h', started, hctx', hat'⟩ := ih hr hctx hat hs his
      rw [Transcript.run_cons, he]
      refine ⟨hr', h', started, hctx', ?_⟩
      simpa [dataOf, hpiece, outputs] using hat'
    · obtain ⟨⟨err, herr⟩, hctx1, hr1⟩ := hF.update hr hpiece
      obtain ⟨hret, hat1⟩ := hP.at_update hat hs (hcalls i List.mem_cons_self l hpiece)
      rw [hctx, Evp.attempt, if_pos hret] at herr
      rw [hctx, Ctx.push_some] at hctx1
      obtain ⟨hr', h', started, hctx', hat'⟩ := ih hr1 hctx1 hat1
        ⟨hs.cipher, hs.isStreamable, hs.key, hs.finished⟩ his
      refine ⟨hr', h', started, hctx', ?_⟩
      rw [Transcript.run_cons, herr]
      simpa [dataOf, hpiece, outputs] using hat'

/-- The data of a call on an encryptor. -/
def EncryptorCall.piece : EncryptorCall → Option ListU8
  | .setAad _ => none
  | .update plaintext => some plaintext

/-- The data of a call on a decryptor. -/
def DecryptorCall.piece : DecryptorCall → Option ListU8
  | .setAad _ => none
  | .setTag _ => none
  | .update ciphertext => some ciphertext

theorem encryptor_feeds (E : Evp) (hstream : algIsAead alg = false) :
    Feeds E (Encryptor.step E) (fun r => r.alg = alg) Encryptor.ctx EncryptorCall.piece where
  refused {r i} hr hi := by
    cases i with
    | setAad aad =>
      refine ⟨.notAead, ?_⟩
      simp [Encryptor.step, Encryptor.setAad, hr, hstream, Except.map]
    | update plaintext => cases hi
  update {r i l} hr hi := by
    cases i with
    | setAad aad => cases hi
    | update plaintext =>
      obtain rfl := Option.some.inj hi
      exact ⟨⟨_, rfl⟩, rfl, hr⟩

theorem decryptor_feeds (E : Evp) (hstream : algIsAead alg = false) :
    Feeds E (Decryptor.step E) (fun r => r.alg = alg) Decryptor.ctx DecryptorCall.piece where
  refused {r i} hr hi := by
    refine ⟨.notAead, ?_⟩
    cases i with
    | setAad aad => simp [Decryptor.step, Decryptor.setAad, hr, hstream, Except.map]
    | setTag tag => simp [Decryptor.step, Decryptor.setTag, hr, hstream, Except.map]
    | update ciphertext => cases hi
  update {r i l} hr hi := by
    cases i with
    | setAad aad => cases hi
    | setTag tag => cases hi
    | update ciphertext =>
      obtain rfl := Option.some.inj hi
      exact ⟨⟨_, rfl⟩, rfl, hr⟩

/-- What an encryptor gives in all: what its calls answer and its end, and a tag. -/
def Encryptor.result (E : Evp) (r : Encryptor) (calls : List EncryptorCall) :
    Except CipherError (List Byte × Option (List Byte)) :=
  ((r.run E calls).2.finish E).map fun last => (outputs (r.run E calls).1 ++ last.1, last.2)

/-- What a decryptor gives in all. -/
def Decryptor.result (E : Evp) (r : Decryptor) (calls : List DecryptorCall) :
    Except CipherError (List Byte) :=
  ((r.run E calls).2.finish E).map (outputs (r.run E calls).1 ++ ·)

/-- Both constructors begin with the same calls. -/
theorem constructorCtx_eq (hc : cipherByAlg E.lib alg = some c) (halloc : E.alloc = true)
    (enc : Bool) (key : ListU8) (iv : Option ListU8) (padding : PaddingMode) :
    constructorCtx E enc alg key iv padding = some (startHistory E enc c key iv padding) := by
  rw [constructorCtx, hc, ctxNew_of_alloc halloc]
  rfl

/-- An encryptor computes the cipher on the whole. -/
theorem Encryptor.result_eq {A : Aead} (hE : E.Documented A) (hP : E.DocumentedPlain B)
    (hc : cipherByAlg E.lib alg = some c) (hstream : c.isStreamable = true)
    (halloc : E.alloc = true) (key : ListU8) (iv : Option ListU8) (padding : PaddingMode)
    {calls : List EncryptorCall}
    (hcalls : ∀ i ∈ calls, ∀ l ∈ i.piece, l.len < 2 ^ 31) :
    ∃ e, (constructorEncryptor E alg key iv padding).result E calls =
      (E.whole B true c key iv padding (dataOf EncryptorCall.piece calls)).elim (.error e)
        fun ct => .ok (ct, none) := by
  let t := (constructorEncryptor E alg key iv padding).run E calls
  have haead : algIsAead alg = false :=
    (algIsAead_eq hc).trans (EvpCipher.isAead_of_isStreamable hstream)
  obtain ⟨-, -, hat⟩ := hP.at_startHistory hstream true key iv padding
  obtain ⟨halg, h', started, hctx, hat'⟩ := (encryptor_feeds E haead).run_spec hP
    (r := constructorEncryptor E alg key iv padding) rfl
    (constructorCtx_eq hc halloc true key iv padding) hat (takes_plainSession hstream) calls hcalls
  have hwhole : E.whole B true c key iv padding (dataOf EncryptorCall.piece calls) =
      if (E.call (some h') .final).ret = 1 then
        some (outputs t.1 ++ (E.call (some h') .final).out)
      else none :=
    hP.whole_eq hstream hat'
  refine ⟨E.internalError (some (.final :: h')), ?_⟩
  rw [hwhole, result, finish,
    show t.2.ctx = some h' from hctx, show t.2.alg = alg from halg]
  rcases hE.ret_final (some h') with hret | hret
  · simp [hret, Except.map]
  · simp [hret, haead, Except.map]
    rfl

/-- A decryptor computes the cipher on the whole, and fails for want of padding. -/
theorem Decryptor.result_eq {A : Aead} (hE : E.Documented A) (hP : E.DocumentedPlain B)
    (hc : cipherByAlg E.lib alg = some c) (hstream : c.isStreamable = true)
    (halloc : E.alloc = true) (key : ListU8) (iv : Option ListU8) (padding : PaddingMode)
    {calls : List DecryptorCall}
    (hcalls : ∀ i ∈ calls, ∀ l ∈ i.piece, l.len < 2 ^ 31) :
    (constructorDecryptor E alg key iv padding).result E calls =
      (E.whole B false c key iv padding (dataOf DecryptorCall.piece calls)).elim
        (.error .badPadding) .ok := by
  let t := (constructorDecryptor E alg key iv padding).run E calls
  have haead : algIsAead alg = false :=
    (algIsAead_eq hc).trans (EvpCipher.isAead_of_isStreamable hstream)
  obtain ⟨-, -, hat⟩ := hP.at_startHistory hstream false key iv padding
  obtain ⟨halg, h', started, hctx, hat'⟩ := (decryptor_feeds E haead).run_spec hP
    (r := constructorDecryptor E alg key iv padding) rfl
    (constructorCtx_eq hc halloc false key iv padding) hat (takes_plainSession hstream) calls hcalls
  have hwhole : E.whole B false c key iv padding (dataOf DecryptorCall.piece calls) =
      if (E.call (some h') .final).ret = 1 then
        some (outputs t.1 ++ (E.call (some h') .final).out)
      else none :=
    hP.whole_eq hstream hat'
  rw [hwhole, result, finish,
    show t.2.ctx = some h' from hctx, show t.2.alg = alg from halg]
  rcases hE.ret_final (some h') with hret | hret
  · simp [hret, haead, Except.map]
  · simp [hret, Except.map]
    rfl

/-! ## Agreement -/

/-- A piece is no longer than the whole. -/
theorem len_le_of_dataOf_eq {ι : Type} {piece : ι → Option ListU8} {calls : List ι} {inp : ListU8}
    (hdata : dataOf piece calls = inp.bytes) {i : ι} (hi : i ∈ calls) {l : ListU8}
    (hl : l ∈ piece i) : l.len ≤ inp.len := by
  have hmem : l.bytes ∈ (calls.filterMap piece).map ListU8.bytes :=
    List.mem_map_of_mem (List.mem_filterMap.mpr ⟨i, hi, hl⟩)
  have hle := (List.sublist_flatten_of_mem hmem).length_le
  rw [← List.flatMap_def, show (calls.filterMap piece).flatMap ListU8.bytes = _ from hdata] at hle
  rwa [ListU8.length_bytes, ListU8.length_bytes] at hle

/-- Without a cipher or without memory nothing comes out. -/
theorem constructorCtx_idle_or (E : Evp) (alg : Algorithm) :
    (∃ c, cipherByAlg E.lib alg = some c ∧ E.alloc = true) ∨
      (∀ (enc : Bool) (key : ListU8) (iv : Option ListU8) (padding : PaddingMode),
        E.Idle (constructorCtx E enc alg key iv padding)) ∧
      (∀ (enc : Bool) (key : ListU8) (iv : Option ListU8) (padding : PaddingMode) (inp : ListU8),
        (oneShot E enc alg key iv padding inp).toOption = none) ∧
      (E.alloc = true → cipherByAlg E.lib alg = none) := by
  rcases hc : cipherByAlg E.lib alg with _ | c
  · refine Or.inr ⟨constructorCtx_idle hc, fun enc key iv padding inp => ?_, fun _ => rfl⟩
    rw [oneShot, hc]
    rfl
  rcases halloc : E.alloc with _ | _
  · refine Or.inr ⟨fun enc key iv padding => ?_, fun enc key iv padding inp => ?_,
      fun h => by cases h⟩
    · simp only [constructorCtx, hc, ctxNew_eq_none.mpr halloc]
      rfl
    · simp only [oneShot, hc, ctxNew_eq_none.mpr halloc, if_true]
      split_ifs <;> rfl
  · exact Or.inl ⟨c, rfl, rfl⟩

theorem toOption_map_eq_none {ε α β : Type} {x : Except ε α} (h : ∀ a, x ≠ .ok a) (f : α → β) :
    (x.map f).toOption = none := by
  cases x with
  | error e => rfl
  | ok a => exact absurd rfl (h a)

end

/-! ## The reference -/

/-- Ciphers that leave the data as it is. -/
def referencePlain : PlainCipher := fun _ _ _ _ _ data => some data

theorem documentedPlain_referenceEvp (L : Libcrypto) (authTag : TagFunction) :
    (referenceEvp L authTag).DocumentedPlain referencePlain where
  init _ := Reference.init_ret _ _ _ _ _
  setPadding {h c pad} _ _ := by
    rw [Reference.call_eq]
    rfl
  update hc _ _ _ hn := Reference.update_ret hc true _ hn
  final {h c key} hc hstream _ _ := by
    have hret : ((referenceEvp L authTag).call (some h) .final).ret = 1 := by
      refine Reference.final_ret hc fun haead => ?_
      rw [EvpCipher.isAead_of_isStreamable hstream] at haead
      cases haead
    rw [if_pos hret, (Reference.follows_referenceEvp L authTag).output_eq, Evp.session_cons hret]
    rfl

/-- The reference that an example is computed with. -/
def plainEvp : Evp := referenceEvp openssl prefixTag

theorem sixteen_lt_two_pow : 16 < 2 ^ 32 := by decide

/-- A key or IV of zeros. -/
def zeroBlock : ListU8 := zeros 16 sixteen_lt_two_pow

/-- The bytes 1, 2 and 3, and the last two of them. -/
def threeBytes : ListU8 := .ofBytes [1, 2, 3] (by decide) 0

def lastTwo : ListU8 := .ofBytes [2, 3] (by decide) 0

theorem plainEvp_documented : plainEvp.Documented (referenceAead prefixTag) :=
  referenceEvp_documented openssl prefixTag

theorem documentedPlain_plainEvp : plainEvp.DocumentedPlain referencePlain :=
  documentedPlain_referenceEvp openssl prefixTag

end OpenSSLWasm.Cipher
