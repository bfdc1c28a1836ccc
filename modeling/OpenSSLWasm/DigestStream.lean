import OpenSSLWasm.Digest
import OpenSSLWasm.Lib.Absorb

/-!
# Digests of streams

A digest context gets its data in chunks, and may be copied in the middle. What it gives in the end
is to be the digest of all that it got, as the one-shot functions of `src/component.c` compute it.

## Main definitions

* `oneShot` and `oneShotXof`: the one-shot functions;
* `Hashes`: what is documented of the results of the EVP functions;
* `Reliable`: no EVP function fails without a reason;
* `noteOf`: what an answer of a context tells its caller.

## Main results

* `carries_step`: a context that is initialised has absorbed what its caller knows of;
* `finish_eq_oneShot`: it gives the digest of that, and answers as the one-shot functions where
  nothing fails.
-/

namespace OpenSSLWasm.Digest

open Absorb Transcript

/-! ## One-shot functions -/

/-- The EVP functions that take no context. -/
structure OneShotEvp (ω : Type) where
  /-- `EVP_MD_get_size`. -/
  mdSize : DigestAlgorithm → ℤ
  /-- `EVP_Digest`. -/
  digest : ω → DigestAlgorithm → List Byte → Option (List Byte)

section

variable {σ ω : Type} (E : Evp σ ω) (O : OneShotEvp ω) (b : Build)

def oneShot (w : ω) (alg : DigestAlgorithm) (data : List Byte) : Reply :=
  match digestMd b alg with
  | none => ⟨.error .unsupportedAlgorithm, []⟩
  | some md =>
    if digestIsXof alg then ⟨.error .xofRequired, []⟩
    else
      withMemory E w (.ofDigest (O.mdSize md)) <|
        match O.digest w md data with
        | some out => .bytes out
        | none => .error (.internal (E.lastError w))

/-- The three calls on a new context, as long as they succeed. -/
def digestXof (w : ω) (c : σ) (md : DigestAlgorithm) (data : List Byte) (outLen : ℕ) :
    Option (List Byte) :=
  let (ok, c) := E.init w c md
  if ok = false then none
  else
    let (ok, c) := E.update w c data
    if ok = false then none else E.finalXof w c outLen

def oneShotXof (w : ω) (alg : DigestAlgorithm) (data : List Byte) (outLen : ℕ) : Reply :=
  match digestMd b alg with
  | none => ⟨.error .unsupportedAlgorithm, []⟩
  | some md =>
    if digestIsXof alg = false then ⟨.error .xofRequired, []⟩
    else
      match E.new w with
      | none => ⟨.error (.internal 0), []⟩
      | some c =>
        withMemory E w (.asked outLen) <|
          match digestXof E w c md data outLen with
          | some out => .bytes out
          | none => .error (.internal (E.lastError w))

/-! ## Results -/

/-- Digests, and extendable outputs of a length. -/
structure HashFunctions where
  hash : DigestAlgorithm → List Byte → List Byte
  xof : DigestAlgorithm → List Byte → ℕ → List Byte

variable (F : HashFunctions) (Has : σ → List Byte → Prop)

/-- What is documented of results: a context `Has` the data that it was given since its
initialisation, and gives the digest of that. -/
structure Hashes : Prop where
  init : ∀ w c a, (E.init w c a).1 = true → Has (E.init w c a).2 []
  update : ∀ w c d data, Has c d → (E.update w c data).1 = true →
    Has (E.update w c data).2 (d ++ data)
  copy : ∀ w dst src d, Has src d → (E.copy w dst src).1 = true → Has (E.copy w dst src).2 d
  final : ∀ w c a d, E.md c = some a → Has c d → ∀ out ∈ E.final w c, out = F.hash a d
  finalXof : ∀ w c a d n, E.md c = some a → Has c d → ∀ out ∈ E.finalXof w c n, out = F.xof a d n
  digest : ∀ w a d, ∀ out ∈ O.digest w a d, out = F.hash a d
  /-- `EVP_MD_CTX_get_size` is `EVP_MD_get_size` of the digest. -/
  size : ∀ c a, E.md c = some a → E.size c = O.mdSize a

/-- No EVP function fails on what it takes. -/
structure Reliable : Prop where
  new : ∀ w, E.new w ≠ none
  init : ∀ w c a, (E.init w c a).1 = true
  update : ∀ w c data, E.md c ≠ none → (E.update w c data).1 = true
  copy : ∀ w dst src, E.md src ≠ none → (E.copy w dst src).1 = true
  final : ∀ w c a, E.md c = some a → digestIsXof a = false → E.final w c ≠ none
  finalXof : ∀ w c a n, E.md c = some a → digestIsXof a = true → E.finalXof w c n ≠ none
  digest : ∀ w a d, digestIsXof a = false → O.digest w a d ≠ none

end

/-! ## What the caller knows -/

/-- A note about the context that was made, if one was. -/
def Reply.made (r : Reply) (n : ℕ → Note DigestAlgorithm Byte) :
    Option (Note DigestAlgorithm Byte) :=
  match r.outcome with
  | .context h => some (n h)
  | _ => none

/-- What the answer to a call tells. A new context is there, a chunk was absorbed, a context was
copied; or else the context of the call may hold anything, or is gone. -/
def noteOf {ω : Type} : Event ω × Reply → Option (Note DigestAlgorithm Byte)
  | (.construct alg _, r) => r.made (.opened · alg)
  | (.update h data _, r) => some (if r.outcome = .done then .absorbed h data else .lost h)
  | (.clone h _, r) => r.made (.copied h)
  | (.finish h _, _) => some (.lost h)
  | (.finishXof h _ _, _) => some (.lost h)
  | (.drop h, _) => some (.lost h)

section

variable {σ ω : Type} {E : Evp σ ω} {O : OneShotEvp ω} {b : Build} {F : HashFunctions}
  {Has : σ → List Byte → Prop}

/-- The context is for the algorithm, and has absorbed the data if it is initialised, which it is
where no EVP function fails. -/
structure Live.Holds (E : Evp σ ω) (O : OneShotEvp ω) (b : Build) (Has : σ → List Byte → Prop)
    (x : Live σ) (alg : DigestAlgorithm) (data : List Byte) : Prop where
  alg_eq : x.rep.alg = alg
  has : x.failed = false → ∃ c ∈ x.rep.ctx, Has c data
  initialised : Reliable E O → digestMd b alg ≠ none → x.failed = false

/-- There is such a context. -/
def State.Holds (E : Evp σ ω) (O : OneShotEvp ω) (b : Build) (Has : σ → List Byte → Prop)
    (s : State σ) (h : ℕ) (a : DigestAlgorithm × List Byte) : Prop :=
  ∃ x, s.contexts h = some x ∧ x.Holds E O b Has a.1 a.2

theorem holds_constructor (hH : Hashes E O F Has) (w : ω) (alg : DigestAlgorithm) :
    Live.Holds E O b Has ⟨(constructorContext E b w alg).2, !(constructorContext E b w alg).1⟩
      alg [] := by
  unfold constructorContext
  split
  next c md hnew hmd =>
    refine ⟨rfl, fun hok => ⟨_, rfl, ?_⟩, fun hR _ => ?_⟩
    · exact hH.init w c md (by simpa using hok)
    · simp [hR.init w c md]
  next hnone =>
    refine ⟨rfl, fun hok => by simp at hok, fun hR hmd => ?_⟩
    -- neither of the two can be missing
    obtain ⟨c, hc⟩ := Option.ne_none_iff_exists'.mp (hR.new w)
    obtain ⟨md, hmd⟩ := Option.ne_none_iff_exists'.mp hmd
    exact absurd hmd (hnone c md hc)

theorem holds_update (hH : Hashes E O F Has) {x : Live σ} {alg : DigestAlgorithm}
    {d : List Byte} (h : x.Holds E O b Has alg d) {w : ω} {data : List Byte}
    (hdone : (contextUpdate E w x.rep data).1.outcome = .done) :
    Live.Holds E O b Has { x with rep := (contextUpdate E w x.rep data).2 } alg (d ++ data) := by
  unfold contextUpdate at hdone ⊢
  rcases hctx : x.rep.ctx with _ | c
  · simp [hctx] at hdone
  · have hok : (E.update w c data).1 = true := by
      rw [hctx] at hdone
      by_contra hfails
      simp [hfails] at hdone
    refine ⟨h.alg_eq, fun hf => ⟨_, rfl, ?_⟩, h.initialised⟩
    obtain ⟨c', hc', hhas⟩ := h.has hf
    obtain rfl := Option.some.inj (hctx.symm.trans hc')
    exact hH.update w c d data hhas hok

theorem holds_clone (hH : Hashes E O F Has) {x : Live σ} (hx : x.Sound E)
    {alg : DigestAlgorithm} {d : List Byte} (h : x.Holds E O b Has alg d) (w : ω) :
    Live.Holds E O b Has ⟨(contextClone E w x.rep).2, x.failed || !(contextClone E w x.rep).1⟩
      alg d := by
  unfold contextClone
  split
  next dst c hnew hctx =>
    refine ⟨h.alg_eq, fun hf => ⟨_, rfl, ?_⟩, fun hR hmd => ?_⟩
    · simp only [Bool.or_eq_false_iff, Bool.not_eq_false'] at hf
      obtain ⟨c', hc', hhas⟩ := h.has hf.1
      obtain rfl := Option.some.inj (hctx.symm.trans hc')
      exact hH.copy w dst c d hhas hf.2
    · have hf := h.initialised hR hmd
      rw [Live.Sound, hf, hctx] at hx
      obtain ⟨c', hc', hmd'⟩ := hx
      obtain rfl := Option.some.inj hc'
      simp [hf, hR.copy w dst c (by simp [hmd'])]
  next hnone =>
    refine ⟨h.alg_eq, fun hf => by simp at hf, fun hR hmd => ?_⟩
    obtain ⟨dst, hdst⟩ := Option.ne_none_iff_exists'.mp (hR.new w)
    obtain ⟨c, hc, -⟩ := h.has (h.initialised hR hmd)
    exact absurd hc (hnone dst c hdst)

/-! ## Calls -/

variable {s : State σ}

theorem holds_of_ne {k : ℕ} {o : Option (Live σ)} {n : ℕ} {aborted : Bool} :
    ∀ h a, h ≠ k → s.Holds E O b Has h a →
      State.Holds E O b Has ⟨Function.update s.contexts k o, n, aborted⟩ h a := by
  rintro h a hk ⟨x, hx, hholds⟩
  exact ⟨x, (Function.update_of_ne hk o s.contexts).trans hx, hholds⟩

theorem holds_congr {s' : State σ} (h : s'.contexts = s.contexts) :
    ∀ k a, s.Holds E O b Has k a → s'.Holds E O b Has k a := by
  rintro k a ⟨x, hx, hholds⟩
  exact ⟨x, h ▸ hx, hholds⟩

/-- A context is made under the next handle, or it is not made. -/
theorem make_cases (w : ω) (x : Live σ) (n : ℕ → Note DigestAlgorithm Byte) :
    ((s.make E w x).1.made n = none ∧ (s.make E w x).2.contexts = s.contexts) ∨
      (s.make E w x).1.made n = some (n s.next) ∧
        (s.make E w x).2 = ⟨Function.update s.contexts s.next (some x), s.next + 1, s.aborted⟩ := by
  unfold State.make
  dsimp only
  split_ifs with habort
  · exact Or.inl ⟨by rw [Reply.made, habort], rfl⟩
  · refine Or.inr ⟨?_, rfl⟩
    rcases outcome_withMemory (E := E) w .rep (.context s.next) with ho | ho
    · exact absurd ho habort
    · rw [Reply.made, ho]

theorem carries_opened {w : ω} {x : Live σ} {alg : DigestAlgorithm}
    (hx : x.Holds E O b Has alg []) :
    Carries (s.Holds E O b Has) ((s.make E w x).2.Holds E O b Has)
      ((s.make E w x).1.made (.opened · alg)) := by
  rcases make_cases (E := E) (s := s) w x (.opened · alg) with ⟨hn, hs⟩ | ⟨hn, hs⟩
  · rw [hn]
    exact holds_congr hs
  · rw [hn, hs]
    exact ⟨⟨x, Function.update_self _ _ _, hx⟩, holds_of_ne⟩

theorem carries_copied {w : ω} {x : Live σ} {k : ℕ}
    (hx : ∀ a, s.Holds E O b Has k a → x.Holds E O b Has a.1 a.2) :
    Carries (s.Holds E O b Has) ((s.make E w x).2.Holds E O b Has)
      ((s.make E w x).1.made (.copied k)) := by
  rcases make_cases (E := E) (s := s) w x (.copied k) with ⟨hn, hs⟩ | ⟨hn, hs⟩
  · rw [hn]
    exact holds_congr hs
  · rw [hn, hs]
    exact ⟨fun a ha => ⟨x, Function.update_self _ _ _, hx a ha⟩, holds_of_ne⟩

/-- A handle that is lost, whether it was there or not. -/
theorem carries_lost {k : ℕ} {s' : State σ}
    (h : s'.contexts = s.contexts ∨ ∃ o, s'.contexts = Function.update s.contexts k o) :
    Carries (s.Holds E O b Has) (s'.Holds E O b Has) (some (.lost k)) := by
  intro k' a hk ha
  rcases h with h | ⟨o, h⟩
  · exact holds_congr h k' a ha
  · exact holds_congr (s := ⟨Function.update s.contexts k o, 0, false⟩) h k' a
      (holds_of_ne k' a hk ha)

theorem carries_consume (k : ℕ) (r : Reply) :
    Carries (s.Holds E O b Has) ((s.consume k r).2.Holds E O b Has) (some (.lost k)) :=
  carries_lost (Or.inr ⟨none, rfl⟩)

/-- In every answer, the caller learns what the contexts hold. -/
theorem carries_step (hH : Hashes E O F Has) (hs : s.Sound E) (a : Event ω) :
    Carries (s.Holds E O b Has) ((step E b s a).2.Holds E O b Has)
      (noteOf (a, (step E b s a).1)) := by
  unfold step
  split_ifs with haborted
  · cases a with
    | construct alg w => exact fun _ _ h => h
    | clone k w => exact fun _ _ h => h
    | _ => exact carries_lost (Or.inl rfl)
  cases a with
  | construct alg w => exact carries_opened (holds_constructor hH w alg)
  | update k data w =>
    rw [State.call]
    split
    next => exact carries_lost (Or.inl rfl)
    next x hx =>
      dsimp only [noteOf]
      split_ifs with hdone
      · refine ⟨fun alg d hd => ?_, holds_of_ne⟩
        obtain ⟨y, hy, hholds⟩ := hd
        obtain rfl := Option.some.inj (hx.symm.trans hy)
        exact ⟨_, Function.update_self _ _ _, holds_update hH hholds hdone⟩
      · exact carries_lost (Or.inr ⟨_, rfl⟩)
  | clone k w =>
    rw [State.call]
    split
    next => exact fun _ _ h => h
    next x hx =>
      refine carries_copied fun a ha => ?_
      obtain ⟨y, hy, hholds⟩ := ha
      obtain rfl := Option.some.inj (hx.symm.trans hy)
      exact holds_clone hH (hs k x hx) hholds w
  | finish k w =>
    rw [State.call]
    split
    next => exact carries_lost (Or.inl rfl)
    next x hx => exact carries_consume k _
  | finishXof k n w =>
    rw [State.call]
    split
    next => exact carries_lost (Or.inl rfl)
    next x hx => exact carries_consume k _
  | drop k =>
    rw [State.call]
    split
    next => exact carries_lost (Or.inl rfl)
    next x hx => exact carries_consume k _

/-! ## Ends -/

/-- The reply gives no bytes but these. -/
def Reply.GivesOnly (r : Reply) (out : List Byte) : Prop :=
  ∀ out', r.outcome = .bytes out' → out' = out

theorem givesOnly_error (e : DigestError) (out : List Byte) :
    Reply.GivesOnly ⟨.error e, []⟩ out := by
  intro out' h
  cases h

/-- An allocation that comes first makes no difference. -/
theorem givesOnly_withMemory {w : ω} {sz : Size} {o : Outcome} {out : List Byte}
    (ho : ∀ r, o = .bytes r → r = out) : (withMemory E w sz o).GivesOnly out := by
  intro out' h
  rcases outcome_withMemory (E := E) w sz o with habort | hr
  · rw [habort] at h
    cases h
  · exact ho out' (hr ▸ h)

theorem givesOnly_oneShot (hH : Hashes E O F Has) (w : ω) (alg : DigestAlgorithm)
    (data : List Byte) : (oneShot E O b w alg data).GivesOnly (F.hash alg data) := by
  unfold oneShot
  rcases hmd : digestMd b alg with _ | md
  · exact givesOnly_error _ _
  · obtain rfl := digestMd_eq_some hmd
    dsimp only
    split_ifs
    · exact givesOnly_error _ _
    · refine givesOnly_withMemory fun r hr => ?_
      split at hr
      next out hout => exact Outcome.bytes.inj hr ▸ hH.digest w md data out hout
      next => cases hr

/-- The three calls for an extendable output. -/
theorem digestXof_eq (hE : Documented E) (hH : Hashes E O F Has) {w : ω} {c : σ}
    {md : DigestAlgorithm} {data : List Byte} {n : ℕ} :
    ∀ out ∈ digestXof E w c md data n, out = F.xof md data n := by
  intro out hout
  rw [digestXof] at hout
  dsimp only at hout
  split_ifs at hout with hinit hupdate
  · cases hout
  · cases hout
  · rw [Bool.not_eq_false] at hinit hupdate
    have hhas := hH.update w _ [] data (hH.init w c md hinit) hupdate
    have hmd := (hE.md_update w _ data).trans (hE.md_init w c md hinit)
    exact hH.finalXof w _ md data n hmd hhas out hout

theorem givesOnly_oneShotXof (hE : Documented E) (hH : Hashes E O F Has) (w : ω)
    (alg : DigestAlgorithm) (data : List Byte) (n : ℕ) :
    (oneShotXof E b w alg data n).GivesOnly (F.xof alg data n) := by
  unfold oneShotXof
  rcases hmd : digestMd b alg with _ | md
  · exact givesOnly_error _ _
  · obtain rfl := digestMd_eq_some hmd
    dsimp only
    split_ifs
    · exact givesOnly_error _ _
    · rcases hnew : E.new w with _ | c
      · exact givesOnly_error _ _
      · refine givesOnly_withMemory fun r hr => ?_
        split at hr
        next out hout => exact Outcome.bytes.inj hr ▸ digestXof_eq hE hH out hout
        next => cases hr

/-- A context that gives a result is initialised, for its algorithm and data. -/
theorem Live.Holds.of_ctx {x : Live σ} (hx : x.Sound E)
    {alg : DigestAlgorithm} {data : List Byte} (h : x.Holds E O b Has alg data) {c : σ}
    (hc : x.rep.ctx = some c) (hmd : E.md c ≠ none) : E.md c = some alg ∧ Has c data := by
  rcases hf : x.failed with _ | _
  · rw [Live.Sound, hf, hc] at hx
    obtain ⟨c', hc', hmd'⟩ := hx
    obtain rfl := Option.some.inj hc'
    obtain ⟨c', hc'', hhas⟩ := h.has hf
    obtain rfl := Option.some.inj (hc.symm.trans hc'')
    exact ⟨h.alg_eq ▸ hmd', hhas⟩
  · rw [Live.Sound, if_pos hf] at hx
    exact absurd (hx c hc) hmd

theorem givesOnly_finish (hE : Documented E) (hH : Hashes E O F Has) {x : Live σ}
    (hx : x.Sound E) {alg : DigestAlgorithm} {data : List Byte}
    (h : x.Holds E O b Has alg data) (w : ω) :
    (contextFinish E w x.rep).GivesOnly (F.hash alg data) := by
  unfold contextFinish
  split_ifs
  · exact givesOnly_error _ _
  · refine givesOnly_withMemory fun r hr => ?_
    split at hr
    next out hout =>
      obtain rfl := Outcome.bytes.inj hr
      obtain ⟨c, hc, hfinal⟩ := Option.bind_eq_some_iff.mp hout
      have hmd : E.md c ≠ none := fun hnone => by simp [hE.final_fails w c hnone] at hfinal
      obtain ⟨hmd, hhas⟩ := h.of_ctx hx hc hmd
      exact hH.final w c alg data hmd hhas out hfinal
    next => cases hr

theorem givesOnly_finishXof (hE : Documented E) (hH : Hashes E O F Has) {x : Live σ}
    (hx : x.Sound E) {alg : DigestAlgorithm} {data : List Byte}
    (h : x.Holds E O b Has alg data) (w : ω) (n : ℕ) :
    (contextFinishXof E w x.rep n).GivesOnly (F.xof alg data n) := by
  unfold contextFinishXof
  split_ifs
  · exact givesOnly_error _ _
  · refine givesOnly_withMemory fun r hr => ?_
    split at hr
    next out hout =>
      obtain rfl := Outcome.bytes.inj hr
      obtain ⟨c, hc, hfinal⟩ := Option.bind_eq_some_iff.mp hout
      have hmd : E.md c ≠ none := fun hnone => by simp [hE.finalXof_fails w c n hnone] at hfinal
      obtain ⟨hmd, hhas⟩ := h.of_ctx hx hc hmd
      exact hH.finalXof w c alg data n hmd hhas out hfinal
    next => cases hr

/-- Two results that are both there, and both the right one. -/
theorem eq_of_forall_eq {o o' : Option (List Byte)} {out : List Byte} (ho : o ≠ none)
    (ho' : o' ≠ none) (h : ∀ r ∈ o, r = out) (h' : ∀ r ∈ o', r = out) : o = o' := by
  obtain ⟨r, hr⟩ := Option.ne_none_iff_exists'.mp ho
  obtain ⟨r', hr'⟩ := Option.ne_none_iff_exists'.mp ho'
  rw [hr, hr', h r hr, h' r' hr']

/-- The context of a handle where nothing fails. -/
theorem Live.Holds.exists_ctx {x : Live σ} (hx : x.Sound E) {alg : DigestAlgorithm}
    {data : List Byte} (h : x.Holds E O b Has alg data) (hR : Reliable E O)
    (hmd : digestMd b alg ≠ none) : ∃ c, x.rep.ctx = some c ∧ E.md c = some alg ∧ Has c data := by
  have hf := h.initialised hR hmd
  obtain ⟨c, hc, hhas⟩ := h.has hf
  rw [Live.Sound, hf] at hx
  obtain ⟨c', hc', hmd'⟩ := hx
  obtain rfl := Option.some.inj (hc.symm.trans hc')
  exact ⟨c, hc, h.alg_eq ▸ hmd', hhas⟩

theorem finish_of_reliable (hH : Hashes E O F Has) (hR : Reliable E O) {x : Live σ}
    (hx : x.Sound E) {alg : DigestAlgorithm} {data : List Byte}
    (h : x.Holds E O b Has alg data) (hmd : digestMd b alg ≠ none) (w : ω) :
    contextFinish E w x.rep = oneShot E O b w alg data := by
  obtain ⟨md, hb⟩ := Option.ne_none_iff_exists'.mp hmd
  obtain rfl := digestMd_eq_some hb
  obtain ⟨c, hc, hc', hhas⟩ := h.exists_ctx hx hR hmd
  rw [contextFinish, oneShot, hb, h.alg_eq, hc]
  by_cases hxof : digestIsXof md = true
  · simp only [if_pos hxof]
  · have hxof' : digestIsXof md = false := Bool.eq_false_iff.mpr hxof
    have hout : E.final w c = O.digest w md data :=
      eq_of_forall_eq (hR.final w c md hc' hxof') (hR.digest w md data hxof')
        (hH.final w c md data hc' hhas) (hH.digest w md data)
    rcases hdigest : O.digest w md data with _ | out <;>
      simp only [if_neg hxof, getSize, hH.size c md hc', Option.bind_some, hout, hdigest]

theorem finishXof_of_reliable (hE : Documented E) (hH : Hashes E O F Has) (hR : Reliable E O)
    {x : Live σ} (hx : x.Sound E) {alg : DigestAlgorithm} {data : List Byte}
    (h : x.Holds E O b Has alg data) (hmd : digestMd b alg ≠ none) (w : ω) (n : ℕ) :
    contextFinishXof E w x.rep n = oneShotXof E b w alg data n := by
  obtain ⟨md, hb⟩ := Option.ne_none_iff_exists'.mp hmd
  obtain rfl := digestMd_eq_some hb
  obtain ⟨c, hc, hc', hhas⟩ := h.exists_ctx hx hR hmd
  obtain ⟨c₀, hc₀⟩ := Option.ne_none_iff_exists'.mp (hR.new w)
  rw [contextFinishXof, oneShotXof, hb, h.alg_eq, hc]
  by_cases hxof : digestIsXof md = false
  · simp only [if_pos hxof]
  · have hxof' : digestIsXof md = true := by simpa using hxof
    have hinit := hR.init w c₀ md
    have hmd₀ := hE.md_init w c₀ md hinit
    have hupdate := hR.update w (E.init w c₀ md).2 data (by simp [hmd₀])
    have hfinal := hR.finalXof w (E.update w (E.init w c₀ md).2 data).2 md n
      ((hE.md_update w _ data).trans hmd₀) hxof'
    have hsome : digestXof E w c₀ md data n ≠ none := by
      simpa [digestXof, hinit, hupdate] using hfinal
    have hout : E.finalXof w c n = digestXof E w c₀ md data n :=
      eq_of_forall_eq (hR.finalXof w c md n hc' hxof') hsome
        (hH.finalXof w c md data n hc' hhas) (digestXof_eq hE hH)
    rcases hdigest : digestXof E w c₀ md data n with _ | out <;>
      simp only [if_neg hxof, hc₀, Option.bind_some, hout, hdigest]

end

/-! ## A digest that is a checksum -/

/-- The exclusive or of all bytes, in as many bytes as are wanted. -/
def checksum (n : ℕ) (data : List Byte) : List Byte := List.replicate n (data.foldl BitVec.xor 0)

/-- Contexts as before; the digest is a checksum of 32 bytes. -/
def checksumEvp : Evp (Option DigestAlgorithm × List Byte) Unit :=
  { referenceEvp with
    final := fun _ c => c.1.map fun _ => checksum 32 c.2
    finalXof := fun _ c n => c.1.map fun _ => checksum n c.2 }

def checksumOneShot : OneShotEvp Unit where
  mdSize _ := 32
  digest _ _ data := some (checksum 32 data)

def checksumFunctions : HashFunctions where
  hash _ := checksum 32
  xof _ data n := checksum n data

theorem documented_checksumEvp : Documented checksumEvp :=
  { documented_referenceEvp with
    final_fails := fun _ c h => by
      have h : c.1 = none := h
      simp [checksumEvp, h]
    finalXof_fails := fun _ c n h => by
      have h : c.1 = none := h
      simp [checksumEvp, h] }

theorem hashes_checksumEvp :
    Hashes checksumEvp checksumOneShot checksumFunctions fun c d => c.2 = d where
  init _ _ _ _ := rfl
  update _ c d data h _ := congrArg (· ++ data) h
  copy _ _ _ _ h _ := h
  final _ c a d hmd h out hout := by
    obtain ⟨_, -, rfl⟩ := Option.map_eq_some_iff.mp hout
    rw [← h]
    rfl
  finalXof _ c a d n hmd h out hout := by
    obtain ⟨_, -, rfl⟩ := Option.map_eq_some_iff.mp hout
    rw [← h]
    rfl
  digest _ _ _ out h := (Option.some.inj h).symm
  size c a hmd := by
    have hmd : c.1 = some a := hmd
    simp [checksumEvp, referenceEvp, checksumOneShot, hmd]

theorem reliable_checksumEvp : Reliable checksumEvp checksumOneShot where
  new _ := Option.some_ne_none _
  init _ _ _ := rfl
  update _ c _ h := by
    have h : c.1 ≠ none := h
    exact Option.isSome_iff_ne_none.mpr h
  copy _ _ _ _ := rfl
  final _ c a h _ := by
    have h : c.1 = some a := h
    simp [checksumEvp, h]
  finalXof _ c a n h _ := by
    have h : c.1 = some a := h
    simp [checksumEvp, h]
  digest _ _ _ _ := Option.some_ne_none _

end OpenSSLWasm.Digest
