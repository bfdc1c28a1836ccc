import OpenSSLWasm.Cipher.Basic

/-!
# What a streaming run tells its context

The streaming resources hand additional data, data and tags on to their context, call by call.
After a run the session of the context is what the accepted calls amount to, whatever was refused
in between.

## Main definitions

* `EvpCall.aad`, `EvpCall.data` and `EvpCall.tag`: what a call hands to a context;
* `Drives`: a resource whose calls are each one call on its context.

## Main results

* `Session.foldl_next_feed`: a list of calls collects what it hands over;
* `Drives.run_spec`: session and output after a run;
* `Encryptor.run_idle` and `Decryptor.run_idle`: without a cipher every call fails.
-/

namespace OpenSSLWasm.Cipher

/-! ## Handing data to a session -/

namespace EvpCall

/-- The additional data of a call. -/
def aad : EvpCall → List Byte
  | .update false (some inp) _ => inp
  | _ => []

/-- The data of a call. -/
def data : EvpCall → List Byte
  | .update true inp _ => inp.getD []
  | _ => []

/-- The tag of a call. -/
def tag : EvpCall → Option (List Byte)
  | .setTag _ tag => tag
  | _ => none

/-- The call processes data. -/
def isData : EvpCall → Bool
  | .update true _ _ => true
  | _ => false

/-- The call hands over additional data. -/
def isAad : EvpCall → Bool
  | .update false (some _) _ => true
  | _ => false

/-- The calls that streaming makes between constructor and finish. -/
def isFeed : EvpCall → Bool
  | .update _ (some _) _ => true
  | .setTag _ (some _) => true
  | _ => false

end EvpCall

/-- All additional data comes before the data. -/
def AadFirst (cs : List EvpCall) : Prop := cs.Pairwise fun c d => c.isData = true → d.isAad = false

namespace Session

variable (L : Libcrypto)

/-- One such call hands over its additional data, data and tag, and touches nothing else. -/
theorem next_feed (s : Session) {c : EvpCall} (hc : c.isFeed = true) :
    s.next L c =
      { s with
        aad := s.aad ++ c.aad
        data := s.data ++ c.data
        tag := c.tag <|> s.tag
        started := s.started || c.isData
        aadLate := s.aadLate || (s.started && c.isAad) } := by
  cases c with
  | init enc cipher key iv => cases hc
  | setPadding pad => cases hc
  | setIvLen n => cases hc
  | setTag n tag =>
    cases tag with
    | none => cases hc
    | some tag => simp [next, EvpCall.aad, EvpCall.data, EvpCall.tag, EvpCall.isData, EvpCall.isAad]
  | getTag n => cases hc
  | update out inp n =>
    cases inp with
    | none => cases hc
    | some inp =>
      cases out <;>
        simp [next, EvpCall.aad, EvpCall.data, EvpCall.tag, EvpCall.isData, EvpCall.isAad]
  | final => cases hc

/-- A list of calls hands over what its calls do, the last tag counting. -/
theorem foldl_next_feed (s : Session) {cs : List EvpCall} (hcs : ∀ c ∈ cs, c.isFeed = true)
    (hfirst : AadFirst cs) (hlate : s.aadLate = false)
    (hstarted : s.started = true → ∀ c ∈ cs, c.isAad = false) :
    cs.foldl (next L) s =
      { s with
        aad := s.aad ++ cs.flatMap EvpCall.aad
        data := s.data ++ cs.flatMap EvpCall.data
        tag := cs.reverse.findSome? EvpCall.tag <|> s.tag
        started := s.started || cs.any EvpCall.isData } := by
  -- the induction carries along that additional data is not late yet, and will not be
  induction cs generalizing s with
  | nil => simp
  | cons c cs ih =>
    have hc := hcs c List.mem_cons_self
    obtain ⟨hhead, htail⟩ := List.pairwise_cons.mp hfirst
    have hnolate : (s.aadLate || (s.started && c.isAad)) = false := by
      cases hs : s.started with
      | false => simpa using hlate
      | true => simp [hlate, hstarted hs c List.mem_cons_self]
    rw [List.foldl_cons, next_feed L s hc, hnolate, ih _ (fun d hd => hcs d (by simp [hd])) htail rfl]
    · simp [List.findSome?_append, Bool.or_assoc, Option.or_assoc, hlate]
    · intro h d hd
      rcases Bool.or_eq_true _ _ ▸ h with h | h
      · exact hstarted h d (by simp [hd])
      · -- this call brought the first data
        exact hhead d hd h

end Session

/-! ## Resources that drive a context -/

/-- What a stream of calls answered, without the calls that failed. -/
def outputs {ι : Type} (t : List (ι × Except CipherError (List Byte))) : List Byte :=
  t.flatMap fun p => match p.2 with
    | .ok out => out
    | .error _ => []

/-- The calls of a transcript that were accepted. -/
def accepted {ι : Type} (t : List (ι × Except CipherError (List Byte))) : List ι :=
  t.filterMap fun p => match p.2 with
    | .ok _ => some p.1
    | .error _ => none

theorem accepted_sublist {ι : Type} (t : List (ι × Except CipherError (List Byte))) :
    (accepted t).Sublist (t.map Prod.fst) := by
  induction t with
  | nil => exact List.Sublist.slnil
  | cons p t ih =>
    obtain ⟨i, answer⟩ := p
    cases answer with
    | error e => exact ih.cons i
    | ok out => exact ih.cons_cons i

/-- Every call on the resource, in the states of interest, is one call on its context, and answers
with what that writes. -/
structure Drives (E : Evp) {R ι : Type} (step : R → ι → Except CipherError (List Byte) × R)
    (P : R → Prop) (ctx : R → Ctx) (evpCall : ι → EvpCall) (answer : ι → List Byte → List Byte) :
    Prop where
  step_fst : ∀ {r i}, P r → ∃ err, (step r i).1 = (E.attempt (ctx r) (evpCall i) err).map (answer i)
  step_ctx : ∀ {r i}, P r → ctx (step r i).2 = (ctx r).push (evpCall i)
  step_mem : ∀ {r i}, P r → P (step r i).2
  isFeed : ∀ i, (evpCall i).isFeed = true
  collect : ∀ i soFar out, (evpCall i).collect soFar out = soFar ++ answer i out

namespace Drives

variable {E : Evp} {R ι : Type} {step : R → ι → Except CipherError (List Byte) × R}
  {P : R → Prop} {ctx : R → Ctx} {evpCall : ι → EvpCall} {answer : ι → List Byte → List Byte}

theorem step_spec (hD : Drives E step P ctx evpCall answer) {r : R} {h : History} (hr : P r)
    (hctx : ctx r = some h) (i : ι) :
    ctx (step r i).2 = some (evpCall i :: h) ∧
      ((E.call (some h) (evpCall i)).ret = 1 →
        (step r i).1 = .ok (answer i (E.call (some h) (evpCall i)).out)) ∧
      ((E.call (some h) (evpCall i)).ret ≠ 1 → ∃ e, (step r i).1 = .error e) := by
  obtain ⟨err, herr⟩ := hD.step_fst (i := i) hr
  rw [hctx] at herr
  refine ⟨?_, fun hret => ?_, fun hret => ?_⟩
  · rw [hD.step_ctx hr, hctx, Ctx.push_some]
  · rw [herr, Evp.attempt, if_pos hret]
    rfl
  · rw [herr, Evp.attempt, if_neg hret]
    exact ⟨_, rfl⟩

/-- After a run, the session is what the accepted calls amount to, and the output what they
answered. -/
theorem run_spec (hD : Drives E step P ctx evpCall answer) {r : R} {h : History} (hr : P r)
    (hctx : ctx r = some h) (calls : List ι) :
    P (Transcript.run step r calls).2 ∧
      ∃ h', ctx (Transcript.run step r calls).2 = some h' ∧
        E.session h' =
          ((accepted (Transcript.run step r calls).1).map evpCall).foldl (Session.next E.lib)
            (E.session h) ∧
        E.output h' = E.output h ++ outputs (Transcript.run step r calls).1 := by
  -- the invariant: the session and the output are those of the transcript so far
  refine Transcript.run_invariant (t := [])
    (I := fun t r => P r ∧ ∃ h', ctx r = some h' ∧
      E.session h' = ((accepted t).map evpCall).foldl (Session.next E.lib) (E.session h) ∧
      E.output h' = E.output h ++ outputs t) ?_ ⟨hr, h, hctx, rfl, by simp [outputs]⟩ calls
  rintro t r i ⟨hr, h', hctx, hsession, houtput⟩
  obtain ⟨hctx', hok, herr⟩ := hD.step_spec hr hctx i
  refine ⟨hD.step_mem hr, _, hctx', ?_, ?_⟩
  · by_cases hret : (E.call (some h') (evpCall i)).ret = 1
    · rw [Evp.session_cons hret, hok hret, hsession]
      simp [accepted]
    · obtain ⟨e, he⟩ := herr hret
      rw [Evp.session_cons_of_ne hret, he, hsession]
      simp [accepted]
  · by_cases hret : (E.call (some h') (evpCall i)).ret = 1
    · rw [Evp.output_cons hret, hok hret, hD.collect, houtput]
      simp [outputs]
    · obtain ⟨e, he⟩ := herr hret
      rw [Evp.output_cons_of_ne hret, he, houtput]
      simp [outputs]

end Drives

theorem encryptor_drives (E : Evp) {alg : Algorithm} (haead : algIsAead alg = true) :
    Drives E (Encryptor.step E) (fun r => r.alg = alg ∧ r.tagLen = 16) Encryptor.ctx
      EncryptorCall.evpCall EncryptorCall.answer where
  step_fst {r i} hr := by
    obtain ⟨halg, -⟩ | ⟨err, hstep⟩ := r.step_cases E i
    · rw [hr.1, haead] at halg
      cases halg
    · exact ⟨err, by rw [hstep]⟩
  step_ctx {r i} hr := by
    obtain ⟨halg, -⟩ | ⟨err, hstep⟩ := r.step_cases E i
    · rw [hr.1, haead] at halg
      cases halg
    · rw [hstep]
  step_mem {r i} hr := by
    obtain ⟨-, hstep⟩ | ⟨err, hstep⟩ := r.step_cases E i <;> rw [hstep] <;> exact hr
  isFeed i := by cases i <;> rfl
  collect i soFar out := by
    cases i with
    | setAad aad => exact (List.append_nil _).symm
    | update plaintext => rfl

theorem decryptor_drives (E : Evp) {alg : Algorithm} (haead : algIsAead alg = true) :
    Drives E (Decryptor.step E) (fun r => r.alg = alg) Decryptor.ctx DecryptorCall.evpCall
      DecryptorCall.answer where
  step_fst {r i} hr := by
    obtain ⟨halg, -⟩ | ⟨err, hstep⟩ := r.step_cases E i
    · rw [hr, haead] at halg
      cases halg
    · exact ⟨err, by rw [hstep]⟩
  step_ctx {r i} hr := by
    obtain ⟨halg, -⟩ | ⟨err, hstep⟩ := r.step_cases E i
    · rw [hr, haead] at halg
      cases halg
    · rw [hstep]
  step_mem {r i} hr := by
    obtain ⟨-, hstep⟩ | ⟨err, hstep⟩ := r.step_cases E i <;> rw [hstep] <;> exact hr
  isFeed i := by cases i <;> rfl
  collect i soFar out := by
    cases i with
    | setAad aad => exact (List.append_nil _).symm
    | setTag tag => exact (List.append_nil _).symm
    | update ciphertext => rfl

/-- What the constructors tell a new context: for an AEAD cipher, initialisation succeeds. -/
theorem constructorCtx_spec {E : Evp} {A : Aead} (hE : E.Documented A) {alg : Algorithm}
    {c : EvpCipher} (hc : cipherByAlg E.lib alg = some c) (haead : c.isAead = true)
    (halloc : E.alloc = true) (enc : Bool) (key : ListU8) (iv : Option ListU8)
    (padding : PaddingMode) :
    ∃ h, constructorCtx E enc alg key iv padding = some h ∧ E.output h = [] ∧
      E.session h =
        { cipher := some c
          enc
          ivLen := E.lib.ivLength c
          key := some (readBytes key.ptr (E.lib.keyLength c))
          iv := iv.map fun v => readBytes v.ptr (E.lib.ivLength c) } := by
  let init := E.initCall (some []) enc (some c) (some key.ptr) (iv.map ListU8.ptr)
  have hret : (E.call (some []) init).ret = 1 := hE.init rfl haead
  -- what setting the padding returns does not matter
  refine ⟨[.setPadding (padding = .pkcs7), init], ?_, ?_, ?_⟩
  · rw [constructorCtx, hc, ctxNew_of_alloc halloc]
    rfl
  · by_cases hpad : (E.call (some [init]) (.setPadding (padding = .pkcs7))).ret = 1
    · rw [Evp.output_cons hpad, Evp.output_cons hret]
      rfl
    · rw [Evp.output_cons_of_ne hpad, Evp.output_cons hret]
      rfl
  · rw [Evp.session_setPadding, Evp.session_cons hret]
    simp [init, Evp.initCall_some, Session.next, Function.comp_def]

/-! ## Contexts without a cipher -/

/-- No cipher was named on the context. -/
def Evp.Idle (E : Evp) (ctx : Ctx) : Prop := (E.ctxSession ctx).cipher = none

theorem Evp.Documented.call_idle {E : Evp} {A : Aead} (hE : E.Documented A) {ctx : Ctx}
    (h : E.Idle ctx) {c : EvpCall} (hc : c.needsCipher = true) :
    (E.call ctx c).ret = 0 ∧ E.Idle (ctx.push c) := by
  cases ctx with
  | none => exact ⟨hE.call_null c, rfl⟩
  | some hist =>
    have hret := hE.call_noCipher h hc
    refine ⟨hret, ?_⟩
    have hsame : E.session (c :: hist) = E.session hist :=
      Evp.session_cons_of_ne (by rw [hret]; decide)
    exact (congrArg Session.cipher hsame).trans h

/-- On a context without a cipher, a call that works on the cipher fails. -/
theorem Evp.Documented.attempt_idle {E : Evp} {A : Aead} (hE : E.Documented A) {ctx : Ctx}
    (h : E.Idle ctx) {c : EvpCall} (hc : c.needsCipher = true) (err : Ctx → CipherError) :
    E.attempt ctx c err = .error (err (ctx.push c)) := by
  rw [Evp.attempt, (hE.call_idle h hc).1, if_neg (by decide)]

theorem Evp.idle_ctxNew (E : Evp) : E.Idle E.ctxNew := by
  unfold Idle ctxNew
  split <;> rfl

/-- A resource whose calls are refused outright, or are one call on its context that works on the
cipher: without a cipher all of them fail, and there is still none in the end. -/
theorem Evp.Documented.run_idle {E : Evp} {A : Aead} (hE : E.Documented A) {R ι : Type}
    (step : R → ι → Except CipherError (List Byte) × R) (ctx : R → Ctx) (evpCall : ι → EvpCall)
    (answer : ι → List Byte → List Byte) (hneeds : ∀ i, (evpCall i).needsCipher = true)
    (hcases : ∀ r i, (∃ e, step r i = (.error e, r)) ∨
      ∃ err, (step r i).1 = (E.attempt (ctx r) (evpCall i) err).map (answer i) ∧
        ctx (step r i).2 = (ctx r).push (evpCall i))
    {r : R} (hr : E.Idle (ctx r)) (calls : List ι) :
    (∀ p ∈ (Transcript.run step r calls).1, ∀ out, p.2 ≠ .ok out) ∧
      E.Idle (ctx (Transcript.run step r calls).2) := by
  refine Transcript.run_forall (I := fun r => E.Idle (ctx r))
    (P := fun _ (answer : Except CipherError (List Byte)) => ∀ out, answer ≠ .ok out) ?_ hr calls
  intro r i hr
  obtain ⟨e, hstep⟩ | ⟨err, hanswer, hctx⟩ := hcases r i
  · rw [hstep]
    exact ⟨by simp, hr⟩
  · rw [hanswer, hctx, hE.attempt_idle hr (hneeds i)]
    exact ⟨by simp [Except.map], (hE.call_idle hr (hneeds i)).2⟩

/-- Every call on an encryptor without a cipher fails, and so does its finish. -/
theorem Encryptor.run_idle {E : Evp} {A : Aead} (hE : E.Documented A) {r : Encryptor}
    (hr : E.Idle r.ctx) (calls : List EncryptorCall) :
    (∀ p ∈ (r.run E calls).1, ∀ out, p.2 ≠ .ok out) ∧
      ∀ out, (r.run E calls).2.finish E ≠ .ok out := by
  obtain ⟨hall, hidle⟩ := hE.run_idle (step E) ctx EncryptorCall.evpCall EncryptorCall.answer
    (fun i => by cases i <;> rfl)
    (fun r i => (r.step_cases E i).imp (fun h => ⟨_, h.2⟩)
      fun ⟨err, h⟩ => ⟨err, by rw [h], by rw [h]⟩) hr calls
  refine ⟨hall, fun out => ?_⟩
  rw [finish, run, if_pos (hE.call_idle hidle rfl).1]
  simp

/-- Every call on a decryptor without a cipher fails, and so does its finish. -/
theorem Decryptor.run_idle {E : Evp} {A : Aead} (hE : E.Documented A) {r : Decryptor}
    (hr : E.Idle r.ctx) (calls : List DecryptorCall) :
    (∀ p ∈ (r.run E calls).1, ∀ out, p.2 ≠ .ok out) ∧
      ∀ out, (r.run E calls).2.finish E ≠ .ok out := by
  obtain ⟨hall, hidle⟩ := hE.run_idle (step E) ctx DecryptorCall.evpCall DecryptorCall.answer
    (fun i => by cases i <;> rfl)
    (fun r i => (r.step_cases E i).imp (fun h => ⟨_, h.2⟩)
      fun ⟨err, h⟩ => ⟨err, by rw [h], by rw [h]⟩) hr calls
  refine ⟨hall, fun out => ?_⟩
  rw [finish, run, if_pos (hE.call_idle hidle rfl).1]
  simp

/-- Where no cipher is available, the streaming constructors leave the context without one. -/
theorem constructorCtx_idle {E : Evp} {alg : Algorithm} (hc : cipherByAlg E.lib alg = none)
    (enc : Bool) (key : ListU8) (iv : Option ListU8) (padding : PaddingMode) :
    E.Idle (constructorCtx E enc alg key iv padding) := by
  rw [constructorCtx, hc]
  exact E.idle_ctxNew

end OpenSSLWasm.Cipher
