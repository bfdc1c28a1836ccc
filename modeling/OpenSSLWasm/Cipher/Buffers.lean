import OpenSSLWasm.Cipher.Basic
import OpenSSLWasm.Cipher.Reference

/-!
# Output buffers of ciphers

Before each call of EVP that writes, `src/cipher.c` allocates a buffer. Its size is computed from the
input of this call and the block size of the cipher, although EVP may hold back what it was given by
earlier calls and write it now.

## Main definitions

* `Evp.HoldsBack`: how much EVP is documented to hold back and to write;
* `BufferUse` and `BufferUse.Within`: a buffer, what is written to it and how much is returned;
* `Encryptor.uses`, `Decryptor.uses` and `oneShotUse`: the buffers of a run, and of a one-shot call.

## Main results

* `Evp.HoldsBack.length_update_le` and `Evp.HoldsBack.length_final_le`: what one call writes, if no
  more than a block is held back;
* `Evp.HoldsBack.held_push_control` and `Evp.HoldsBack.held_push_update`: no more is held back after
  it;
* `buffers_suffice`: all buffers are large enough.
-/

namespace OpenSSLWasm.Cipher

/-! ## What EVP holds back -/

/-- The calls of a stream that hand over no data. -/
def EvpCall.isControl : EvpCall → Bool
  | setPadding _ | setTag .. | update false .. => true
  | _ => false

/-- `EVP_CIPHER_CTX_get_block_size`, which is 0 without a cipher. -/
def Evp.ctxBlockSize (E : Evp) (ctx : Ctx) : ℕ :=
  ((E.ctxSession ctx).cipher.map E.lib.blockSize).getD 0

/-- EVP holds back at most one block. An update writes at most what was held back and the input,
rounded down to whole blocks. At the end at most a block is written, or when decrypting what was held
back. -/
structure Evp.HoldsBack (E : Evp) (held : Ctx → ℕ) : Prop where
  held_new : held E.ctxNew = 0
  held_init : ∀ enc c key iv, held (E.ctxNew.push (.init enc (some c) key iv)) = 0
  held_control : ∀ ctx c, c.isControl = true → held (ctx.push c) ≤ held ctx
  held_update : ∀ ctx (l : ListU8), l.len < 2 ^ 31 → held ctx ≤ E.ctxBlockSize ctx →
    held (ctx.push (.updateList true l)) ≤ E.ctxBlockSize ctx
  update_out : ∀ ctx (l : ListU8), l.len < 2 ^ 31 → held ctx ≤ E.ctxBlockSize ctx →
    (E.call ctx (.updateList true l)).out.length ≤
      (held ctx + l.len) / E.ctxBlockSize ctx * E.ctxBlockSize ctx
  final_encrypt : ∀ ctx, (E.ctxSession ctx).enc = true →
    (E.call ctx .final).out.length ≤ E.ctxBlockSize ctx
  final_decrypt : ∀ ctx, (E.ctxSession ctx).enc = false →
    (E.call ctx .final).out.length ≤ held ctx

/-! ## The buffers -/

/-- A buffer of some size, what is written to it, and how many bytes are returned, if any are. -/
structure BufferUse where
  cap : ℕ
  written : List Byte
  returned : Option ℕ
  deriving DecidableEq, Repr

/-- The buffer is large enough, and what is returned is what was written. -/
def BufferUse.Within (u : BufferUse) : Prop :=
  u.written.length ≤ u.cap ∧ ∀ n ∈ u.returned, n = u.written.length

/-- `out_cap` and `out_len`, the size for an update. -/
def outCap (inp : ListU8) (block : ℕ) : ℕ :=
  let cap := cInt inp.len + block
  if 0 < cap then cap.toNat else 1

/-- The size for the end. -/
def finishCap (block : ℕ) : ℕ := if 0 < block then block else 1

section

variable (E : Evp)

/-- The buffers of a run of calls, and of the end. -/
def bufferUses {R ι : Type} (step : R → ι → R) (use : R → ι → List BufferUse)
    (finish : R → BufferUse) : R → List ι → List BufferUse
  | r, [] => [finish r]
  | r, i :: is => use r i ++ bufferUses step use finish (step r i) is

namespace Encryptor

/-- Setting additional data writes nothing. -/
def use (r : Encryptor) : EncryptorCall → List BufferUse
  | .setAad _ => []
  | .update plaintext =>
    [{ cap := outCap plaintext (E.ctxBlockSize r.ctx)
       written := (E.call r.ctx (.updateList true plaintext)).out
       returned := (r.update E plaintext).1.toOption.map List.length }]

def finishUse (r : Encryptor) : BufferUse where
  cap := finishCap (E.ctxBlockSize r.ctx)
  written := (E.call r.ctx .final).out
  returned := (r.finish E).toOption.map (·.1.length)

def uses (r : Encryptor) (calls : List EncryptorCall) : List BufferUse :=
  bufferUses (fun r call => (r.step E call).2) (use E) (finishUse E) r calls

end Encryptor

namespace Decryptor

/-- Setting additional data or the tag writes nothing. -/
def use (r : Decryptor) : DecryptorCall → List BufferUse
  | .setAad _ => []
  | .setTag _ => []
  | .update ciphertext =>
    [{ cap := outCap ciphertext (E.ctxBlockSize r.ctx)
       written := (E.call r.ctx (.updateList true ciphertext)).out
       returned := (r.update E ciphertext).1.toOption.map List.length }]

def finishUse (r : Decryptor) : BufferUse where
  cap := finishCap (E.ctxBlockSize r.ctx)
  written := (E.call r.ctx .final).out
  returned := (r.finish E).toOption.map List.length

def uses (r : Decryptor) (calls : List DecryptorCall) : List BufferUse :=
  bufferUses (fun r call => (r.step E call).2) (use E) (finishUse E) r calls

end Decryptor

/-- The context of a one-shot call when it comes to the data. -/
def oneShotCtx (doEncrypt : Bool) (c : EvpCipher) (key : ListU8) (maybeIv : Option ListU8)
    (padding : PaddingMode) : Ctx :=
  (E.ctxNew.push
    (E.initCall E.ctxNew doEncrypt (some c) (some key.ptr) (maybeIv.map ListU8.ptr))).push
      (.setPadding (padding = .pkcs7))

/-- The buffer of a one-shot call, if it gets as far as that. The end writes behind the update. -/
def oneShotUse (doEncrypt : Bool) (alg : Algorithm) (key : ListU8) (maybeIv : Option ListU8)
    (padding : PaddingMode) (inp : ListU8) : Option BufferUse :=
  match cipherByAlg E.lib alg with
  | none => none
  | some c =>
    let init := E.initCall E.ctxNew doEncrypt (some c) (some key.ptr) (maybeIv.map ListU8.ptr)
    if algIsAead alg = true ∨ E.ctxNew = none ∨ (E.call E.ctxNew init).ret ≠ 1 ∨
        cInt key.len ≠ E.ctxKeyLength (E.ctxNew.push init) then none
    else
      let ctx := oneShotCtx E doEncrypt c key maybeIv padding
      let update := E.call ctx (.updateList true inp)
      let final := E.call (ctx.push (.updateList true inp)) .final
      some {
        cap := outCap inp (E.lib.blockSize c)
        written := update.out ++ if update.ret = 1 then final.out else []
        returned := (oneShot E doEncrypt alg key maybeIv padding inp).toOption.map List.length }

end

/-! ## One call -/

namespace Evp

variable {E : Evp} {held : Ctx → ℕ} {ctx : Ctx}

/-- Only initialisation changes the block size. -/
theorem ctxBlockSize_push (ctx : Ctx) {c : EvpCall} (hc : c.isControl = true ∨ c.needsCipher = true) :
    E.ctxBlockSize (ctx.push c) = E.ctxBlockSize ctx := by
  rcases ctx with _ | h
  · rfl
  · have hcipher : (E.session (c :: h)).cipher = (E.session h).cipher := by
      by_cases hneeds : c.needsCipher = true
      · exact (session_of_needsCipher h hneeds).1
      · -- of the others only the padding is a control
        cases c with
        | setPadding pad => rw [session_setPadding]
        | init enc cipher key iv => simp [EvpCall.isControl, EvpCall.needsCipher] at hc
        | setIvLen | setTag | getTag | update | final => exact absurd rfl hneeds
    simp only [ctxBlockSize, ctxSession, Ctx.push_some, Option.map_some, Option.getD_some, hcipher]

namespace HoldsBack

/-- No more than a block is held back, and that remains so. -/
theorem held_push_control (hE : E.HoldsBack held) (hheld : held ctx ≤ E.ctxBlockSize ctx)
    {c : EvpCall} (hc : c.isControl = true) :
    held (ctx.push c) ≤ E.ctxBlockSize (ctx.push c) := by
  rw [ctxBlockSize_push ctx (Or.inl hc)]
  exact (hE.held_control ctx c hc).trans hheld

theorem held_push_update (hE : E.HoldsBack held) (hheld : held ctx ≤ E.ctxBlockSize ctx)
    {l : ListU8} (hl : l.len < 2 ^ 31) :
    held (ctx.push (.updateList true l)) ≤ E.ctxBlockSize (ctx.push (.updateList true l)) := by
  rw [ctxBlockSize_push ctx (Or.inr rfl)]
  exact hE.held_update ctx l hl hheld

/-- An update writes at most a block more than its input. -/
theorem length_update_le (hE : E.HoldsBack held) (hheld : held ctx ≤ E.ctxBlockSize ctx)
    {l : ListU8} (hl : l.len < 2 ^ 31) :
    (E.call ctx (.updateList true l)).out.length ≤ l.len + E.ctxBlockSize ctx := by
  have hout := hE.update_out ctx l hl hheld
  have hround := Nat.div_mul_le_self (held ctx + l.len) (E.ctxBlockSize ctx)
  omega

/-- The end writes at most a block. -/
theorem length_final_le (hE : E.HoldsBack held) (hheld : held ctx ≤ E.ctxBlockSize ctx) :
    (E.call ctx .final).out.length ≤ E.ctxBlockSize ctx := by
  cases henc : (E.ctxSession ctx).enc with
  | true => exact hE.final_encrypt ctx henc
  | false => exact (hE.final_decrypt ctx henc).trans hheld

end HoldsBack

end Evp

/-- Without overflow, the buffer is a block larger than the input. -/
theorem le_outCap {inp : ListU8} {block : ℕ} (h : inp.len + block ≤ 2 ^ 31 - 1) :
    inp.len + block ≤ outCap inp block := by
  have hlen : cInt inp.len = inp.len := cInt_of_lt (by omega)
  simp only [outCap, hlen]
  split_ifs <;> omega

theorem le_finishCap (block : ℕ) : block ≤ finishCap block := by
  unfold finishCap
  split_ifs <;> omega

/-! ## Runs -/

theorem toOption_eq_some {ε α : Type} {x : Except ε α} {a : α} :
    x.toOption = some a ↔ x = .ok a := by
  rcases x with e | b <;> simp [Except.toOption]

/-- What every call carries on, and what makes the buffers large enough at each call and at the end,
makes them large enough in a run. -/
theorem forall_bufferUses {R ι : Type} {step : R → ι → R} {use : R → ι → List BufferUse}
    {finish : R → BufferUse} {I : R → Prop} {C : ι → Prop}
    (hstep : ∀ r i, I r → C i → (∀ u ∈ use r i, u.Within) ∧ I (step r i))
    (hfinish : ∀ r, I r → (finish r).Within) {r : R} (h : I r) {is : List ι} (hC : ∀ i ∈ is, C i) :
    ∀ u ∈ bufferUses step use finish r is, u.Within := by
  induction is generalizing r with
  | nil =>
    intro u hu
    rw [List.mem_singleton.mp hu]
    exact hfinish r h
  | cons i is ih =>
    obtain ⟨huse, hnext⟩ := hstep r i h (hC i List.mem_cons_self)
    intro u hu
    rcases List.mem_append.mp hu with hu | hu
    · exact huse u hu
    · exact ih hnext (fun j hj => hC j (List.mem_cons_of_mem _ hj)) u hu

section

variable {E : Evp} {held : Ctx → ℕ}

/-- Of the block that there may be, no more than that is held back. -/
def Fits (E : Evp) (held : Ctx → ℕ) (block : ℕ) (ctx : Ctx) : Prop :=
  held ctx ≤ E.ctxBlockSize ctx ∧ E.ctxBlockSize ctx = block

theorem Fits.push_control (hE : E.HoldsBack held) {block : ℕ} {ctx : Ctx}
    (h : Fits E held block ctx) {c : EvpCall} (hc : c.isControl = true) :
    Fits E held block (ctx.push c) :=
  ⟨hE.held_push_control h.1 hc, (Evp.ctxBlockSize_push ctx (Or.inl hc)).trans h.2⟩

theorem Fits.push_update (hE : E.HoldsBack held) {block : ℕ} {ctx : Ctx}
    (h : Fits E held block ctx) {l : ListU8} (hl : l.len < 2 ^ 31) :
    Fits E held block (ctx.push (.updateList true l)) :=
  ⟨hE.held_push_update h.1 hl, (Evp.ctxBlockSize_push ctx (Or.inr rfl)).trans h.2⟩

/-- A new stream holds nothing back. -/
theorem fits_constructorCtx (hE : E.HoldsBack held) (enc : Bool) (alg : Algorithm) (key : ListU8)
    (iv : Option ListU8) (padding : PaddingMode) :
    Fits E held (E.ctxBlockSize (constructorCtx E enc alg key iv padding))
      (constructorCtx E enc alg key iv padding) := by
  refine ⟨?_, rfl⟩
  unfold constructorCtx
  rcases cipherByAlg E.lib alg with _ | c
  · rw [hE.held_new]
    exact Nat.zero_le _
  · refine hE.held_push_control ?_ rfl
    rw [Evp.initCall_some, hE.held_init]
    exact Nat.zero_le _

/-- The buffer for an update, and what the wrapper returns of it. -/
theorem within_update (hE : E.HoldsBack held) {block : ℕ} {ctx : Ctx} (h : Fits E held block ctx)
    {l : ListU8} (hl : l.len + block ≤ 2 ^ 31 - 1) (err : Ctx → CipherError) :
    BufferUse.Within
      { cap := outCap l (E.ctxBlockSize ctx), written := (E.call ctx (.updateList true l)).out,
        returned := (E.attempt ctx (.updateList true l) err).toOption.map List.length } := by
  obtain ⟨hheld, rfl⟩ := h
  refine ⟨(hE.length_update_le hheld (by omega)).trans (le_outCap hl), ?_⟩
  intro n hn
  obtain ⟨out, hout, rfl⟩ := Option.map_eq_some_iff.mp hn
  rw [toOption_eq_some, Evp.attempt] at hout
  split_ifs at hout
  · rw [← Except.ok.inj hout]

/-- An update must not be so long that its buffer would have no size. -/
def EncryptorCall.Bounded (block : ℕ) : EncryptorCall → Prop
  | .setAad _ => True
  | .update plaintext => plaintext.len + block ≤ 2 ^ 31 - 1

def DecryptorCall.Bounded (block : ℕ) : DecryptorCall → Prop
  | .setAad _ => True
  | .setTag _ => True
  | .update ciphertext => ciphertext.len + block ≤ 2 ^ 31 - 1

namespace Encryptor

theorem step_within (hE : E.HoldsBack held) {block : ℕ} (r : Encryptor) (call : EncryptorCall)
    (h : Fits E held block r.ctx) (hcall : call.Bounded block) :
    (∀ u ∈ r.use E call, u.Within) ∧ Fits E held block (r.step E call).2.ctx := by
  cases call with
  | setAad aad =>
    refine ⟨fun u hu => absurd hu List.not_mem_nil, ?_⟩
    rcases step_cases E r (.setAad aad) with ⟨-, hstep⟩ | ⟨err, hstep⟩
    · rw [hstep]
      exact h
    · rw [hstep]
      exact h.push_control hE rfl
  | update plaintext =>
    -- the bound on the input makes it shorter than `2 ^ 31`
    refine ⟨fun u hu => ?_, h.push_update hE (by unfold EncryptorCall.Bounded at hcall; omega)⟩
    rw [List.mem_singleton.mp hu]
    exact within_update hE h hcall E.internalError

theorem fst_of_finish_eq_ok {r : Encryptor} {out : List Byte} {tag : Option (List Byte)}
    (h : r.finish E = .ok (out, tag)) : out = (E.call r.ctx .final).out := by
  unfold finish at h
  dsimp only at h
  rw [ite_error_eq_ok] at h
  obtain ⟨-, h⟩ := h
  split_ifs at h
  · -- the tag comes beside the bytes
    cases htag : E.attempt (r.ctx.push .final) (.getTag r.tagLen) fun _ => .badTagSize with
    | error e =>
      rw [htag] at h
      cases h
    | ok tag' =>
      rw [htag] at h
      exact (Prod.mk.inj (Except.ok.inj h)).1.symm
  · exact (Prod.mk.inj (Except.ok.inj h)).1.symm

theorem finish_within (hE : E.HoldsBack held) {block : ℕ} (r : Encryptor)
    (h : Fits E held block r.ctx) : (r.finishUse E).Within := by
  refine ⟨(hE.length_final_le h.1).trans (le_finishCap _), fun n hn => ?_⟩
  obtain ⟨⟨out, tag⟩, hout, rfl⟩ := Option.map_eq_some_iff.mp hn
  rw [fst_of_finish_eq_ok (toOption_eq_some.mp hout)]
  rfl

/-- The buffers of an encryption. -/
theorem uses_within (hE : E.HoldsBack held) {block : ℕ} {r : Encryptor}
    (h : Fits E held block r.ctx) {calls : List EncryptorCall}
    (hcalls : ∀ call ∈ calls, call.Bounded block) : ∀ u ∈ r.uses E calls, u.Within :=
  forall_bufferUses (I := fun r => Fits E held block r.ctx) (step_within hE) (finish_within hE) h
    hcalls

end Encryptor

namespace Decryptor

theorem step_within (hE : E.HoldsBack held) {block : ℕ} (r : Decryptor) (call : DecryptorCall)
    (h : Fits E held block r.ctx) (hcall : call.Bounded block) :
    (∀ u ∈ r.use E call, u.Within) ∧ Fits E held block (r.step E call).2.ctx := by
  cases call with
  | setAad aad =>
    refine ⟨fun u hu => absurd hu List.not_mem_nil, ?_⟩
    rcases step_cases E r (.setAad aad) with ⟨-, hstep⟩ | ⟨err, hstep⟩
    · rw [hstep]
      exact h
    · rw [hstep]
      exact h.push_control hE rfl
  | setTag tag =>
    refine ⟨fun u hu => absurd hu List.not_mem_nil, ?_⟩
    rcases step_cases E r (.setTag tag) with ⟨-, hstep⟩ | ⟨err, hstep⟩
    · rw [hstep]
      exact h
    · rw [hstep]
      exact h.push_control hE rfl
  | update ciphertext =>
    refine ⟨fun u hu => ?_, h.push_update hE (by unfold DecryptorCall.Bounded at hcall; omega)⟩
    rw [List.mem_singleton.mp hu]
    exact within_update hE h hcall E.internalError

theorem finish_within (hE : E.HoldsBack held) {block : ℕ} (r : Decryptor)
    (h : Fits E held block r.ctx) : (r.finishUse E).Within := by
  refine ⟨(hE.length_final_le h.1).trans (le_finishCap _), fun n hn => ?_⟩
  obtain ⟨out, hout, rfl⟩ := Option.map_eq_some_iff.mp hn
  rw [toOption_eq_some, finish, ite_error_eq_ok] at hout
  rw [← Except.ok.inj hout.2]
  rfl

/-- The buffers of a decryption. -/
theorem uses_within (hE : E.HoldsBack held) {block : ℕ} {r : Decryptor}
    (h : Fits E held block r.ctx) {calls : List DecryptorCall}
    (hcalls : ∀ call ∈ calls, call.Bounded block) : ∀ u ∈ r.uses E calls, u.Within :=
  forall_bufferUses (I := fun r => Fits E held block r.ctx) (step_within hE) (finish_within hE) h
    hcalls

end Decryptor

/-! ## One-shot calls -/

/-- A one-shot call that gets to its buffer has initialised its context. -/
theorem oneShotUse_eq_some {doEncrypt : Bool} {alg : Algorithm} {key : ListU8} {iv : Option ListU8}
    {padding : PaddingMode} {inp : ListU8} {u : BufferUse}
    (hu : oneShotUse E doEncrypt alg key iv padding inp = some u) :
    ∃ c h, cipherByAlg E.lib alg = some c ∧ E.ctxNew = some h ∧
      (E.call (some h)
        (E.initCall (some h) doEncrypt (some c) (some key.ptr) (iv.map ListU8.ptr))).ret = 1 ∧
      u =
        { cap := outCap inp (E.lib.blockSize c)
          written := (E.call (oneShotCtx E doEncrypt c key iv padding) (.updateList true inp)).out ++
            if (E.call (oneShotCtx E doEncrypt c key iv padding) (.updateList true inp)).ret = 1 then
              (E.call ((oneShotCtx E doEncrypt c key iv padding).push (.updateList true inp))
                .final).out
            else []
          returned := (oneShot E doEncrypt alg key iv padding inp).toOption.map List.length } := by
  unfold oneShotUse at hu
  rcases hc : cipherByAlg E.lib alg with _ | c
  · rw [hc] at hu
    cases hu
  · simp only [hc, Option.ite_none_left_eq_some, not_or, not_not, ne_eq, Option.some.injEq] at hu
    obtain ⟨⟨-, halloc, hret, -⟩, rfl⟩ := hu
    obtain ⟨h, hh⟩ := Option.ne_none_iff_exists'.mp halloc
    rw [hh] at hret
    exact ⟨c, h, rfl, hh, hret, rfl⟩

/-- What a one-shot call returns is what the update and the end have written. -/
theorem returned_oneShot {doEncrypt : Bool} {alg : Algorithm} {key : ListU8} {iv : Option ListU8}
    {padding : PaddingMode} {inp : ListU8} {u : BufferUse}
    (hu : oneShotUse E doEncrypt alg key iv padding inp = some u) :
    ∀ n ∈ u.returned, n = u.written.length := by
  obtain ⟨c, h, hc, hnew, -, rfl⟩ := oneShotUse_eq_some hu
  intro n hn
  obtain ⟨out, hout, rfl⟩ := Option.map_eq_some_iff.mp hn
  rw [toOption_eq_some, oneShot_eq_ok] at hout
  obtain ⟨c', hc', -, halloc, ctx', hbody⟩ := hout
  obtain rfl := Option.some.inj (hc'.symm.trans hc)
  have hctx : E.ctxNew = some [] := ctxNew_of_alloc halloc
  unfold oneShotBody at hbody
  rw [EvpM.expectInit_bind_eq_ok, EvpM.expectKeyLength_bind_eq_ok, EvpM.perform_bind_eq_ok,
    EvpM.expect_bind_eq_ok, EvpM.expect_bind_eq_ok, EvpM.pure_eq_ok] at hbody
  obtain ⟨-, -, hupdate, -, rfl, -⟩ := hbody
  simp only [oneShotCtx, hctx]
  rw [if_pos hupdate]

/-- Together the update and the end write at most a block more than the input. -/
theorem within_oneShot (hE : E.HoldsBack held) {doEncrypt : Bool} {alg : Algorithm} {key : ListU8}
    {iv : Option ListU8} {padding : PaddingMode} {inp : ListU8}
    (hinp : ∀ c ∈ cipherByAlg E.lib alg, inp.len + E.lib.blockSize c ≤ 2 ^ 31 - 1) {u : BufferUse}
    (hu : oneShotUse E doEncrypt alg key iv padding inp = some u) : u.Within := by
  refine ⟨?_, returned_oneShot hu⟩
  obtain ⟨c, h, hc, hnew, hret, rfl⟩ := oneShotUse_eq_some hu
  have hlen := hinp c hc
  -- nothing is held back yet, and the block size is that of the cipher
  have hheld : held (oneShotCtx E doEncrypt c key iv padding) = 0 := by
    refine Nat.eq_zero_of_le_zero ((hE.held_control _ _ rfl).trans ?_)
    rw [Evp.initCall_some, hE.held_init]
  have hblock : E.ctxBlockSize (oneShotCtx E doEncrypt c key iv padding) = E.lib.blockSize c := by
    rw [oneShotCtx, Evp.ctxBlockSize_push _ (Or.inl rfl), hnew, Ctx.push_some, Evp.ctxBlockSize,
      Evp.ctxSession, Option.map_some, Option.getD_some, Evp.session_cons hret]
    rfl
  have hzero : held (oneShotCtx E doEncrypt c key iv padding) ≤
      E.ctxBlockSize (oneShotCtx E doEncrypt c key iv padding) := by
    rw [hheld]
    exact Nat.zero_le _
  have hupdate := hE.update_out _ inp (by omega) hzero
  have hround := Nat.div_mul_le_self inp.len (E.lib.blockSize c)
  have hfinal := hE.length_final_le (hE.held_push_update hzero (show inp.len < 2 ^ 31 by omega))
  rw [Evp.ctxBlockSize_push _ (Or.inr rfl), hblock] at hfinal
  rw [hheld, hblock, Nat.zero_add] at hupdate
  -- whole blocks of the input, and one more
  refine le_trans ?_ (le_outCap hlen)
  rw [List.length_append]
  split_ifs
  · omega
  · rw [List.length_nil]
    omega

/-- In every run of an encryptor or a decryptor and in every one-shot call, the buffers are large
enough for what is written to them, and that is what is returned. -/
theorem buffers_suffice (hE : E.HoldsBack held) (alg : Algorithm) (key : ListU8)
    (iv : Option ListU8) (padding : PaddingMode) :
    (∀ calls : List EncryptorCall,
      (∀ call ∈ calls, call.Bounded
        (E.ctxBlockSize (constructorEncryptor E alg key iv padding).ctx)) →
        ∀ u ∈ (constructorEncryptor E alg key iv padding).uses E calls, u.Within) ∧
    (∀ calls : List DecryptorCall,
      (∀ call ∈ calls, call.Bounded
        (E.ctxBlockSize (constructorDecryptor E alg key iv padding).ctx)) →
        ∀ u ∈ (constructorDecryptor E alg key iv padding).uses E calls, u.Within) ∧
    ∀ (doEncrypt : Bool) (inp : ListU8),
      (∀ c ∈ cipherByAlg E.lib alg, inp.len + E.lib.blockSize c ≤ 2 ^ 31 - 1) →
        ∀ u ∈ oneShotUse E doEncrypt alg key iv padding inp, u.Within := by
  refine ⟨fun calls hcalls => ?_, fun calls hcalls => ?_, fun doEncrypt inp hinp u hu => ?_⟩
  · exact Encryptor.uses_within hE (fits_constructorCtx hE true alg key iv padding) hcalls
  · exact Decryptor.uses_within hE (fits_constructorCtx hE false alg key iv padding) hcalls
  · exact within_oneShot hE hinp hu

end

/-! ## An EVP that works in blocks -/

namespace Blockwise

/-- How many of the first `n` bytes of data are written by updates. When decrypting, the last block
might be padding. -/
def written (enc : Bool) (block n : ℕ) : ℕ :=
  if enc = false ∧ 1 < block ∧ block ∣ n then n - block else n / block * block

theorem written_le (enc : Bool) (block n : ℕ) : written enc block n ≤ n / block * block := by
  unfold written
  split_ifs with h
  · obtain ⟨-, hblock, k, rfl⟩ := h
    rw [Nat.mul_div_cancel_left k (by omega), Nat.mul_comm k]
    omega
  · exact le_rfl

theorem dvd_written (enc : Bool) (block n : ℕ) : block ∣ written enc block n := by
  unfold written
  split_ifs with h
  · exact Nat.dvd_sub h.2.2 (Nat.dvd_refl block)
  · exact Nat.dvd_mul_left _ _

theorem sub_written_le (enc : Bool) {block : ℕ} (hblock : 0 < block) (n : ℕ) :
    n - written enc block n ≤ block := by
  unfold written
  split_ifs
  · omega
  · have hdiv := Nat.div_add_mod' n block
    have hmod := Nat.mod_lt n hblock
    omega

/-- What an update of `m` bytes writes after `n` bytes. -/
theorem written_add_sub_le (enc : Bool) {block : ℕ} (hblock : 0 < block) (n m : ℕ) :
    written enc block (n + m) - written enc block n ≤
      (n - written enc block n + m) / block * block := by
  obtain ⟨k, hk⟩ := dvd_written enc block n
  have hle := (written_le enc block n).trans (Nat.div_mul_le_self n block)
  have hadd := written_le enc block (n + m)
  -- what was written before is a number of blocks
  have hsplit : n + m = n - written enc block n + m + block * k := by omega
  have hdiv : (n + m) / block * block =
      (n - written enc block n + m) / block * block + written enc block n := by
    rw [hsplit, Nat.add_mul_div_left _ _ hblock, Nat.add_mul, Nat.mul_comm k, ← hk]
  omega

/-- What the context was told, where every call succeeds. -/
def session (h : History) : Session := h.foldr (fun c s => s.next openssl c) {}

def blockSize (s : Session) : ℕ := (s.cipher.map openssl.blockSize).getD 0

/-- The data is left as it is, and padded at the end. -/
def output (s : Session) : EvpCall → List Byte
  | .update true inp _ =>
    let data := s.data ++ inp.getD []
    (data.take (written s.enc (blockSize s) data.length)).drop
      (written s.enc (blockSize s) s.data.length)
  | .final =>
    let rest := (s.data.drop (written s.enc (blockSize s) s.data.length)).take (blockSize s)
    let pad := blockSize s - rest.length
    if s.enc = false then rest.take (rest.length - (rest.getLastD 0).toNat)
    else if 1 < blockSize s then rest ++ List.replicate pad (BitVec.ofNat 8 pad) else []
  | _ => []

def heldBack (s : Session) : ℕ :=
  min (s.data.length - written s.enc (blockSize s) s.data.length) (blockSize s)

end Blockwise

open Blockwise

/-- An EVP that holds back what does not fill a block. -/
def blockwiseEvp : Evp where
  lib := openssl
  alloc := true
  call
    | none, _ => ⟨0, []⟩
    | some h, c => ⟨1, output (session h) c⟩
  ctxKeyLength ctx := (ctx.map fun h => ((session h).cipher.map openssl.keyLength).getD 0).getD 0
  peekLastError _ := 0

theorem session_blockwiseEvp (h : History) : blockwiseEvp.session h = Blockwise.session h := by
  induction h with
  | nil => rfl
  | cons c h ih =>
    rw [Evp.session_cons rfl, ih]
    rfl

theorem ctxBlockSize_blockwiseEvp (h : History) :
    blockwiseEvp.ctxBlockSize (some h) = blockSize (Blockwise.session h) := by
  rw [Evp.ctxBlockSize, Evp.ctxSession, Option.map_some, Option.getD_some, session_blockwiseEvp]
  rfl

theorem heldBack_control (s : Session) {c : EvpCall} (hc : c.isControl = true) :
    heldBack (s.next openssl c) = heldBack s := by
  rcases c with _ | _ | _ | _ | _ | ⟨_ | _, _ | _, _⟩ | _
  all_goals first | rfl | cases hc

theorem length_output_update_le (s : Session) (l : ListU8) :
    (output s (.updateList true l)).length ≤
      (heldBack s + l.len) / blockSize s * blockSize s := by
  rcases Nat.eq_zero_or_pos (blockSize s) with hzero | hpos
  · -- without a cipher nothing is written
    simp [output, EvpCall.updateList, hzero, written]
  · have hheld : heldBack s = s.data.length - written s.enc (blockSize s) s.data.length :=
      Nat.min_eq_left (sub_written_le s.enc hpos _)
    have hlen : (output s (.updateList true l)).length ≤
        written s.enc (blockSize s) (s.data.length + l.len) -
          written s.enc (blockSize s) s.data.length := by
      simp only [output, EvpCall.updateList, Option.getD_some, List.length_drop, List.length_take,
        List.length_append, ListU8.length_bytes]
      omega
    rw [hheld]
    exact hlen.trans (written_add_sub_le s.enc hpos _ _)

theorem length_output_final_encrypt_le {s : Session} (henc : s.enc = true) :
    (output s .final).length ≤ blockSize s := by
  simp only [output, henc, Bool.true_eq_false, if_false]
  split_ifs
  · simp only [List.length_append, List.length_take, List.length_replicate]
    omega
  · exact Nat.zero_le _

theorem length_output_final_decrypt_le {s : Session} (henc : s.enc = false) :
    (output s .final).length ≤ heldBack s := by
  simp only [output, henc, if_true, heldBack, List.length_take, List.length_drop]
  omega

theorem holdsBack_blockwiseEvp :
    blockwiseEvp.HoldsBack fun ctx => (ctx.map fun h => heldBack (Blockwise.session h)).getD 0 := by
  constructor
  case held_new => rfl
  case held_init =>
    intro enc c key iv
    show min (0 - _) _ = 0
    rw [Nat.zero_sub, Nat.zero_min]
  case held_control =>
    rintro (_ | h) c hc
    · exact le_rfl
    · exact (heldBack_control (Blockwise.session h) hc).le
  case held_update =>
    rintro (_ | h) l - -
    · exact le_rfl
    · rw [← Evp.ctxBlockSize_push (c := .updateList true l) (some h) (Or.inr rfl), Ctx.push_some,
        ctxBlockSize_blockwiseEvp]
      exact Nat.min_le_right _ _
  case update_out =>
    rintro (_ | h) l - -
    · exact Nat.zero_le _
    · rw [ctxBlockSize_blockwiseEvp]
      exact length_output_update_le (Blockwise.session h) l
  case final_encrypt =>
    rintro (_ | h) henc
    · exact Nat.zero_le _
    · rw [Evp.ctxSession, Option.map_some, Option.getD_some, session_blockwiseEvp] at henc
      rw [ctxBlockSize_blockwiseEvp]
      exact length_output_final_encrypt_le henc
  case final_decrypt =>
    rintro (_ | h) henc
    · exact Nat.zero_le _
    · rw [Evp.ctxSession, Option.map_some, Option.getD_some, session_blockwiseEvp] at henc
      exact length_output_final_decrypt_le henc

/-- Zeros, as a list of the interface. -/
def zeros (n : ℕ) (h : n < 2 ^ 32) : ListU8 where
  ptr _ := 0
  len := n
  len_lt := h

/-- Twenty bytes and twelve, of which the second update writes a block more than it is given. -/
theorem buffers_suffice_aes128Cbc :
    (∀ u ∈ (constructorDecryptor blockwiseEvp .aes128Cbc (zeros 16 (by omega))
        (some (zeros 16 (by omega))) .pkcs7).uses blockwiseEvp
          [.update (zeros 20 (by omega)), .update (zeros 12 (by omega))], u.Within) ∧
      ∀ u ∈ oneShotUse blockwiseEvp true .aes128Cbc (zeros 16 (by omega))
        (some (zeros 16 (by omega))) .pkcs7 (zeros 20 (by omega)), u.Within := by
  obtain ⟨-, hdecryptor, honeShot⟩ := buffers_suffice holdsBack_blockwiseEvp .aes128Cbc
    (zeros 16 (by omega)) (some (zeros 16 (by omega))) .pkcs7
  refine ⟨hdecryptor _ ?_, honeShot true _ ?_⟩
  · simp only [List.mem_cons, List.not_mem_nil, or_false, forall_eq_or_imp, forall_eq]
    exact ⟨show 20 + 16 ≤ 2 ^ 31 - 1 by decide, show 12 + 16 ≤ 2 ^ 31 - 1 by decide⟩
  · intro c hc
    obtain rfl := Option.mem_some.mp hc
    decide

end OpenSSLWasm.Cipher
