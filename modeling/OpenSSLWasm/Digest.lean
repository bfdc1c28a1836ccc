import OpenSSLWasm.Lib.Transcript
import OpenSSLWasm.Pkey.Basic

/-!
# Contexts of digests

The constructor of a digest context in `src/component.c` cannot fail, so a context may be there
whose initialisation failed. The calls on it are to return an error.

## Main definitions

* `Evp` and `Documented`: the EVP functions, and what is documented of them;
* `Rep` and the `context` functions: the resource and its calls;
* `Event` and `step`: calls on contexts that come and go, among them clones;
* `Surfaces`: a call on a context whose initialisation failed returns an error, and no allocation
  has a size that was computed from a negative length;
* `Safe`: the call is not `finish` on such a context, unless its digest is a XOF.

## Main results

* `sound_step`: a context is initialised exactly if neither its constructor nor a clone that it
  comes from has failed;
* `surfaces_step_iff`, `surfaces_iff`: failures surface exactly as long as calls are safe;
* `abort_of_finish`: otherwise the component aborts.
-/

namespace OpenSSLWasm.Digest

open Transcript

/-! ## Digests -/

/-- What the build of OpenSSL has of the digests that may be left out. -/
structure Build where
  blake2 : Bool
  rmd160 : Bool
  sm3 : Bool
  deriving DecidableEq, Repr

/-- An `EVP_MD` is named by its algorithm; `none` is NULL. -/
def digestMd (b : Build) (alg : DigestAlgorithm) : Option DigestAlgorithm :=
  match alg with
  | .blake2s256 | .blake2b512 => if b.blake2 then some alg else none
  | .ripemd160 => if b.rmd160 then some alg else none
  | .sm3 => if b.sm3 then some alg else none
  | _ => some alg

def digestIsXof (a : DigestAlgorithm) : Bool := a = .shake128 || a = .shake256

/-- `digest-error`. -/
inductive DigestError
  | unsupportedAlgorithm
  | xofRequired
  | internal (code : BitVec 64)
  deriving DecidableEq, Repr

/-! ## EVP -/

/-- The EVP functions on contexts `σ`, and the memory; `ω` is what a call depends on otherwise. -/
structure Evp (σ ω : Type) where
  /-- `EVP_MD_CTX_new`. -/
  new : ω → Option σ
  /-- `EVP_DigestInit_ex`. -/
  init : ω → σ → DigestAlgorithm → Bool × σ
  /-- `EVP_DigestUpdate`. -/
  update : ω → σ → List Byte → Bool × σ
  /-- `EVP_MD_CTX_get0_md`. -/
  md : σ → Option DigestAlgorithm
  /-- `EVP_MD_CTX_get_size`. -/
  size : σ → ℤ
  /-- `EVP_DigestFinal_ex`. -/
  final : ω → σ → Option (List Byte)
  /-- `EVP_DigestFinalXOF`. -/
  finalXof : ω → σ → ℕ → Option (List Byte)
  /-- `EVP_MD_CTX_copy_ex`, to a new context. -/
  copy : ω → σ → σ → Bool × σ
  /-- `ERR_peek_last_error`. -/
  lastError : ω → BitVec 64
  /-- There is memory of so many bytes. -/
  malloc : ω → ℕ → Bool

/-- What is documented: a context is initialised or not, and most calls fail if it is not. -/
structure Documented {σ ω : Type} (E : Evp σ ω) : Prop where
  md_new : ∀ w, ∀ c ∈ E.new w, E.md c = none
  md_init : ∀ w c a, (E.init w c a).1 = true → E.md (E.init w c a).2 = some a
  md_init_fails : ∀ w c a, E.md c = none → (E.init w c a).1 = false →
    E.md (E.init w c a).2 = none
  md_update : ∀ w c data, E.md (E.update w c data).2 = E.md c
  update_fails : ∀ w c data, E.md c = none → (E.update w c data).1 = false
  size_fails : ∀ c, E.md c = none → E.size c = -1
  size_nonneg : ∀ c a, E.md c = some a → digestIsXof a = false → 0 ≤ E.size c
  final_fails : ∀ w c, E.md c = none → E.final w c = none
  finalXof_fails : ∀ w c n, E.md c = none → E.finalXof w c n = none
  md_copy : ∀ w dst src, (E.copy w dst src).1 = true → E.md (E.copy w dst src).2 = E.md src
  md_copy_fails : ∀ w dst src, E.md dst = none → (E.copy w dst src).1 = false →
    E.md (E.copy w dst src).2 = none

/-! ## The resource -/

/-- `digest_context_rep`. -/
structure Rep (σ : Type) where
  ctx : Option σ
  alg : DigestAlgorithm

/-- What an allocation is for. -/
inductive Size
  | rep
  /-- The length of a digest, as the `int` that it is. -/
  | ofDigest (n : ℤ)
  /-- A length that the caller asked for. -/
  | asked (n : ℕ)
  deriving DecidableEq, Repr

/-- The `size_t` that `xmalloc` gets. -/
def Size.bytes : Size → ℕ
  | rep => 8
  -- the conversion to `unsigned int`
  | ofDigest n => (n % 2 ^ 32).toNat
  | asked n => if n = 0 then 1 else n

inductive Outcome
  | context (h : ℕ)
  | done
  | bytes (b : List Byte)
  | error (e : DigestError)
  | abort
  /-- There is no such context, or no component any more. -/
  | impossible
  deriving DecidableEq, Repr

/-- What becomes of a call, and the allocations that it asked `xmalloc` for. -/
structure Reply where
  outcome : Outcome
  requests : List Size := []
  deriving DecidableEq, Repr

section

variable {σ ω : Type} (E : Evp σ ω) (b : Build)

/-- `xmalloc`, and what follows it. -/
def withMemory (w : ω) (s : Size) (outcome : Outcome) : Reply where
  outcome := if E.malloc w s.bytes = false ∧ s.bytes ≠ 0 then .abort else outcome
  requests := [s]

/-- The constructor, and whether it has initialised the context. -/
def constructorContext (w : ω) (alg : DigestAlgorithm) : Bool × Rep σ :=
  match E.new w, digestMd b alg with
  | some c, some md => ((E.init w c md).1, ⟨some (E.init w c md).2, alg⟩)
  | ctx, _ => (false, ⟨ctx, alg⟩)

def contextUpdate (w : ω) (r : Rep σ) (data : List Byte) : Reply × Rep σ :=
  match r.ctx with
  | none => (⟨.error (.internal (E.lastError w)), []⟩, r)
  | some c =>
    (⟨if (E.update w c data).1 then .done else .error (.internal (E.lastError w)), []⟩,
      { r with ctx := some (E.update w c data).2 })

/-- `EVP_MD_CTX_get_size`, which takes NULL too. -/
def getSize : Option σ → ℤ
  | none => -1
  | some c => E.size c

def contextFinish (w : ω) (r : Rep σ) : Reply :=
  if digestIsXof r.alg then ⟨.error .xofRequired, []⟩
  else
    withMemory E w (.ofDigest (getSize E r.ctx)) <|
      match r.ctx.bind (E.final w) with
      | some out => .bytes out
      | none => .error (.internal (E.lastError w))

def contextFinishXof (w : ω) (r : Rep σ) (outLen : ℕ) : Reply :=
  if digestIsXof r.alg = false then ⟨.error .xofRequired, []⟩
  else
    withMemory E w (.asked outLen) <|
      match r.ctx.bind (E.finalXof w · outLen) with
      | some out => .bytes out
      | none => .error (.internal (E.lastError w))

/-- The clone, and whether the context was copied. -/
def contextClone (w : ω) (src : Rep σ) : Bool × Rep σ :=
  match E.new w, src.ctx with
  | some dst, some c => ((E.copy w dst c).1, ⟨some (E.copy w dst c).2, src.alg⟩)
  | ctx, _ => (false, ⟨ctx, src.alg⟩)

end

/-! ## Contexts that come and go -/

/-- A context that is there. -/
structure Live (σ : Type) where
  rep : Rep σ
  /-- Its initialisation failed, or that of a context that it is a clone of, or the copy did. -/
  failed : Bool

structure State (σ : Type) where
  contexts : ℕ → Option (Live σ) := fun _ => none
  /-- The handle of the next context. -/
  next : ℕ := 0
  aborted : Bool := false

inductive Event (ω : Type)
  | construct (alg : DigestAlgorithm) (w : ω)
  | update (h : ℕ) (data : List Byte) (w : ω)
  | clone (h : ℕ) (w : ω)
  | finish (h : ℕ) (w : ω)
  | finishXof (h outLen : ℕ) (w : ω)
  | drop (h : ℕ)

section

variable {σ ω : Type} (E : Evp σ ω) (b : Build)

namespace State

variable (s : State σ)

/-- A new context, unless there is no memory for its record. -/
def make (w : ω) (x : Live σ) : Reply × State σ :=
  let r := withMemory E w .rep (.context s.next)
  if r.outcome = .abort then (r, { s with aborted := true })
  else (r, { s with contexts := Function.update s.contexts s.next (some x), next := s.next + 1 })

/-- A call that consumes a context. -/
def consume (h : ℕ) (r : Reply) : Reply × State σ :=
  (r, { s with
    contexts := Function.update s.contexts h none, aborted := decide (r.outcome = .abort) })

end State

/-- What one call does, as long as the component has not aborted. -/
def State.call (s : State σ) : Event ω → Reply × State σ
  | .construct alg w =>
    let (ok, rep) := constructorContext E b w alg
    s.make E w ⟨rep, !ok⟩
  | .update h data w =>
    match s.contexts h with
    | none => (⟨.impossible, []⟩, s)
    | some x =>
      let (r, rep) := contextUpdate E w x.rep data
      (r, { s with contexts := Function.update s.contexts h (some { x with rep }) })
  | .clone h w =>
    match s.contexts h with
    | none => (⟨.impossible, []⟩, s)
    | some x =>
      let (ok, rep) := contextClone E w x.rep
      s.make E w ⟨rep, x.failed || !ok⟩
  | .finish h w =>
    match s.contexts h with
    | none => (⟨.impossible, []⟩, s)
    | some x => s.consume h (contextFinish E w x.rep)
  | .finishXof h outLen w =>
    match s.contexts h with
    | none => (⟨.impossible, []⟩, s)
    | some x => s.consume h (contextFinishXof E w x.rep outLen)
  | .drop h =>
    match s.contexts h with
    | none => (⟨.impossible, []⟩, s)
    | some _ => s.consume h ⟨.done, []⟩

def step (s : State σ) (a : Event ω) : Reply × State σ :=
  if s.aborted then (⟨.impossible, []⟩, s) else s.call E b a

end

/-! ## Contexts and their initialisation -/

section

variable {σ ω : Type} {E : Evp σ ω} {b : Build}

/-- A context is initialised with its digest exactly if nothing has failed. -/
def Live.Sound (E : Evp σ ω) (x : Live σ) : Prop :=
  if x.failed then ∀ c ∈ x.rep.ctx, E.md c = none else ∃ c ∈ x.rep.ctx, E.md c = some x.rep.alg

def State.Sound (E : Evp σ ω) (s : State σ) : Prop :=
  ∀ h x, s.contexts h = some x → x.Sound E

theorem Live.sound_of_failed {x : Live σ} (hx : x.failed = true)
    (h : ∀ c ∈ x.rep.ctx, E.md c = none) : x.Sound E := by
  rwa [Live.Sound, if_pos hx]

theorem digestMd_eq_some {alg md : DigestAlgorithm} (h : digestMd b alg = some md) : md = alg := by
  unfold digestMd at h
  split at h
  all_goals first
    | exact (Option.some.inj h).symm
    | exact (Option.some.inj (Option.ite_none_right_eq_some.mp h).2).symm

theorem sound_constructor (hE : Documented E) (w : ω) (alg : DigestAlgorithm) :
    Live.Sound E ⟨(constructorContext E b w alg).2, !(constructorContext E b w alg).1⟩ := by
  unfold constructorContext
  split
  next c md hnew hmd =>
    rcases hinit : (E.init w c md).1 with _ | _
    · refine Live.sound_of_failed rfl fun c' hc' => ?_
      obtain rfl := Option.some.inj hc'
      exact hE.md_init_fails w c md (hE.md_new w c hnew) hinit
    · refine ⟨_, rfl, ?_⟩
      rw [← digestMd_eq_some hmd]
      exact hE.md_init w c md hinit
  next =>
    refine Live.sound_of_failed rfl fun c hc => ?_
    exact hE.md_new w c hc

theorem sound_update (hE : Documented E) {x : Live σ} (h : x.Sound E) (w : ω) (data : List Byte) :
    Live.Sound E { x with rep := (contextUpdate E w x.rep data).2 } := by
  unfold contextUpdate
  rcases hctx : x.rep.ctx with _ | c
  · exact h
  · rcases hfailed : x.failed with _ | _
    · rw [Live.Sound, hctx, hfailed] at h
      obtain ⟨c', hc', hmd⟩ := h
      obtain rfl := Option.some.inj hc'
      exact ⟨_, rfl, (hE.md_update w c data).trans hmd⟩
    · rw [Live.Sound, hctx, hfailed] at h
      refine Live.sound_of_failed rfl fun c' hc' => ?_
      obtain rfl := Option.some.inj hc'
      exact (hE.md_update w c data).trans (h c rfl)

theorem sound_clone (hE : Documented E) {x : Live σ} (h : x.Sound E) (w : ω) :
    Live.Sound E ⟨(contextClone E w x.rep).2, x.failed || !(contextClone E w x.rep).1⟩ := by
  unfold contextClone
  split
  next dst c hnew hctx =>
    rw [Live.Sound, hctx] at h
    rcases hcopy : (E.copy w dst c).1 with _ | _
    · refine Live.sound_of_failed (by simp) fun c' hc' => ?_
      obtain rfl := Option.some.inj hc'
      exact hE.md_copy_fails w dst c (hE.md_new w dst hnew) hcopy
    · -- the copy is initialised like the original
      have hmd := hE.md_copy w dst c hcopy
      rcases hfailed : x.failed with _ | _
      · rw [hfailed] at h
        obtain ⟨c', hc', hsrc⟩ := h
        obtain rfl := Option.some.inj hc'
        exact ⟨_, rfl, hmd.trans hsrc⟩
      · rw [hfailed] at h
        refine Live.sound_of_failed rfl fun c' hc' => ?_
        obtain rfl := Option.some.inj hc'
        exact hmd.trans (h c rfl)
  next =>
    refine Live.sound_of_failed (by simp) fun c hc => ?_
    exact hE.md_new w c hc

theorem State.Sound.update {s : State σ} (h : s.Sound E) {k : ℕ} {o : Option (Live σ)}
    (ho : ∀ x ∈ o, x.Sound E) {n : ℕ} {aborted : Bool} :
    State.Sound E ⟨Function.update s.contexts k o, n, aborted⟩ := by
  intro k' x hx
  have hx : Function.update s.contexts k o k' = some x := hx
  by_cases hk : k' = k
  · subst hk
    rw [Function.update_self] at hx
    exact ho x hx
  · rw [Function.update_of_ne hk] at hx
    exact h k' x hx

theorem State.Sound.make {s : State σ} (h : s.Sound E) (w : ω) {x : Live σ} (hx : x.Sound E) :
    (s.make E w x).2.Sound E := by
  unfold State.make
  dsimp only
  split_ifs
  · exact h
  · exact h.update fun y hy => Option.some.inj hy ▸ hx

theorem State.Sound.consume {s : State σ} (h : s.Sound E) (k : ℕ) (r : Reply) :
    (s.consume k r).2.Sound E :=
  h.update (o := none) (by simp)

/-- A call keeps what is known of all contexts. -/
theorem sound_step (hE : Documented E) {s : State σ} (h : s.Sound E) (a : Event ω) :
    (step E b s a).2.Sound E := by
  unfold step
  split_ifs
  · exact h
  cases a with
  | construct alg w => exact h.make w (sound_constructor hE w alg)
  | update k data w =>
    rw [State.call]
    split
    next => exact h
    next x hx => exact h.update fun y hy => Option.some.inj hy ▸ sound_update hE (h k x hx) w data
  | clone k w =>
    rw [State.call]
    split
    next => exact h
    next x hx => exact h.make w (sound_clone hE (h k x hx) w)
  | finish k w =>
    rw [State.call]
    split
    next => exact h
    next x hx => exact h.consume k _
  | finishXof k outLen w =>
    rw [State.call]
    split
    next => exact h
    next x hx => exact h.consume k _
  | drop k =>
    rw [State.call]
    split
    next => exact h
    next x hx => exact h.consume k _

/-! ## Failures -/

/-- The context that a fallible call is for. -/
def Event.target : Event ω → Option ℕ
  | .update h _ _ | .finish h _ | .finishXof h _ _ => some h
  | _ => none

/-- No allocation has a size that is computed from a negative length, and a fallible call on a
context whose initialisation failed returns an error, unless there is no memory for a length that
the caller asks for. -/
structure Surfaces (s : State σ) (a : Event ω) (r : Reply) : Prop where
  requests : ∀ n < 0, .ofDigest n ∉ r.requests
  error : s.aborted = false → ∀ h ∈ a.target, ∀ x, s.contexts h = some x → x.failed = true →
    (∃ e, r.outcome = .error e) ∨ r.outcome = .abort ∧ ∃ n, .asked n ∈ r.requests

/-- The call is not `finish` on a context whose initialisation failed, unless its digest is a
XOF. -/
def Safe (s : State σ) : Event ω → Prop
  | .finish h _ => s.aborted = false → ∀ x, s.contexts h = some x → x.failed = true →
    digestIsXof x.rep.alg = true
  | _ => True

theorem outcome_withMemory (w : ω) (sz : Size) (o : Outcome) :
    (withMemory E w sz o).outcome = .abort ∨ (withMemory E w sz o).outcome = o := by
  unfold withMemory
  dsimp only
  split_ifs
  · exact Or.inl rfl
  · exact Or.inr rfl

theorem getSize_of_failed (hE : Documented E) {x : Live σ} (h : x.Sound E)
    (hfailed : x.failed = true) : getSize E x.rep.ctx = -1 := by
  rw [Live.Sound, if_pos hfailed] at h
  rcases hctx : x.rep.ctx with _ | c
  · rfl
  · exact hE.size_fails c (h c hctx)

theorem getSize_nonneg (hE : Documented E) {x : Live σ} (h : x.Sound E)
    (hfailed : x.failed = false) (hxof : digestIsXof x.rep.alg = false) :
    0 ≤ getSize E x.rep.ctx := by
  rw [Live.Sound, hfailed] at h
  obtain ⟨c, hc, hmd⟩ := h
  rw [Option.mem_def.mp hc]
  exact hE.size_nonneg c _ hmd hxof

theorem requests_contextFinish (w : ω) (r : Rep σ) (sz : Size) :
    sz ∈ (contextFinish E w r).requests ↔
      digestIsXof r.alg = false ∧ sz = .ofDigest (getSize E r.ctx) := by
  unfold contextFinish
  split_ifs with h
  · simp [h]
  · have h : digestIsXof r.alg = false := Bool.eq_false_iff.mpr h
    simp [withMemory, h]

/-- `finish` surfaces a failure exactly for a XOF. -/
theorem surfaces_finish_iff (hE : Documented E) {s : State σ} {k : ℕ} {x : Live σ}
    (hx : x.Sound E) (hs : s.contexts k = some x) (w : ω) :
    Surfaces s (.finish k w) (contextFinish E w x.rep) ↔
      (x.failed = true → digestIsXof x.rep.alg = true) := by
  constructor
  · intro h hfailed
    by_contra hxof
    refine h.requests (-1) (by omega) ((requests_contextFinish w x.rep _).mpr ⟨?_, ?_⟩)
    · exact Bool.eq_false_iff.mpr hxof
    · rw [getSize_of_failed hE hx hfailed]
  · intro h
    refine ⟨fun n hn hmem => ?_, fun _ k' hk' y hy hfailed => Or.inl ?_⟩
    · obtain ⟨hxof, hsize⟩ := (requests_contextFinish w x.rep _).mp hmem
      obtain rfl := Size.ofDigest.inj hsize
      rcases hfailed : x.failed with _ | _
      · have := getSize_nonneg hE hx hfailed hxof
        omega
      · rw [h hfailed] at hxof
        cases hxof
    · obtain rfl := Option.some.inj hk'
      obtain rfl := Option.some.inj (hs.symm.trans hy)
      refine ⟨.xofRequired, ?_⟩
      rw [contextFinish, if_pos (h hfailed)]

theorem surfaces_finishXof (hE : Documented E) {s : State σ} {k : ℕ} {x : Live σ}
    (hx : x.Sound E) (hs : s.contexts k = some x) (outLen : ℕ) (w : ω) :
    Surfaces s (.finishXof k outLen w) (contextFinishXof E w x.rep outLen) := by
  unfold contextFinishXof
  split_ifs with hxof
  · exact ⟨fun _ _ => List.not_mem_nil, fun _ _ _ _ _ _ => Or.inl ⟨_, rfl⟩⟩
  · refine ⟨fun n _ => by simp [withMemory], fun _ k' hk' y hy hfailed => ?_⟩
    obtain rfl := Option.some.inj hk'
    obtain rfl := Option.some.inj (hs.symm.trans hy)
    rw [Live.Sound, if_pos hfailed] at hx
    -- there is nothing to finish
    have hnone : x.rep.ctx.bind (E.finalXof w · outLen) = none := by
      rcases hctx : x.rep.ctx with _ | c
      · rfl
      · exact hE.finalXof_fails w c outLen (hx c hctx)
    simp only [hnone]
    rcases outcome_withMemory (E := E) w (.asked outLen) (.error (.internal (E.lastError w))) with
      h | h
    · exact Or.inr ⟨h, outLen, List.mem_singleton_self _⟩
    · exact Or.inl ⟨_, h⟩

theorem surfaces_update (hE : Documented E) {s : State σ} {k : ℕ} {x : Live σ}
    (hx : x.Sound E) (hs : s.contexts k = some x) (data : List Byte) (w : ω) :
    Surfaces s (.update k data w) (contextUpdate E w x.rep data).1 := by
  unfold contextUpdate
  rcases hctx : x.rep.ctx with _ | c
  · exact ⟨fun _ _ => List.not_mem_nil, fun _ _ _ _ _ _ => Or.inl ⟨_, rfl⟩⟩
  · refine ⟨fun _ _ => List.not_mem_nil, fun _ k' hk' y hy hfailed => Or.inl ?_⟩
    obtain rfl := Option.some.inj hk'
    obtain rfl := Option.some.inj (hs.symm.trans hy)
    rw [Live.Sound, if_pos hfailed] at hx
    have hfails : (E.update w c data).1 = false := hE.update_fails w c data (hx c hctx)
    refine ⟨.internal (E.lastError w), ?_⟩
    simp only [hfails]
    rfl

/-- A call that is not fallible, and asks for a record at most. -/
theorem surfaces_of_target_eq_none {s : State σ} {a : Event ω} (ha : a.target = none) {r : Reply}
    (hr : ∀ n, .ofDigest n ∉ r.requests) : Surfaces s a r := by
  refine ⟨fun n _ => hr n, fun _ h hh => ?_⟩
  rw [ha] at hh
  cases hh

theorem requests_make (s : State σ) (w : ω) (x : Live σ) : (s.make E w x).1.requests = [.rep] := by
  unfold State.make
  dsimp only
  split_ifs <;> rfl

theorem surfaces_impossible {s : State σ} {a : Event ω}
    (hnone : ∀ k ∈ a.target, s.aborted = false → s.contexts k = none) :
    Surfaces s a ⟨.impossible, []⟩ := by
  refine ⟨fun _ _ => List.not_mem_nil, fun hlive k hk x hx => ?_⟩
  rw [hnone k hk hlive] at hx
  cases hx

/-- A call on a context that is not there. -/
theorem surfaces_missing {s : State σ} {a : Event ω} {k : ℕ} (ha : a.target = some k)
    (hnone : s.contexts k = none) : Surfaces s a ⟨.impossible, []⟩ := by
  refine surfaces_impossible fun k' hk' _ => ?_
  obtain rfl : k = k' := Option.some.inj (ha.symm.trans hk')
  exact hnone

/-- In a state that calls can lead to, a call surfaces failures exactly if it is safe. -/
theorem surfaces_step_iff (hE : Documented E) {s : State σ} (h : s.Sound E) (a : Event ω) :
    Surfaces s a (step E b s a).1 ↔ Safe s a := by
  rcases hlive : s.aborted with _ | _
  case true =>
    rw [step, if_pos hlive]
    refine iff_of_true (surfaces_impossible fun _ _ hfalse => ?_) ?_
    · rw [hlive] at hfalse
      cases hfalse
    · cases a with
      | finish k w => exact fun hfalse => absurd (hlive.symm.trans hfalse) (by decide)
      | _ => trivial
  rw [step, if_neg (by simp [hlive])]
  cases a with
  | construct alg w =>
    refine iff_of_true (surfaces_of_target_eq_none rfl fun n => ?_) trivial
    rw [State.call, requests_make]
    simp
  | update k data w =>
    refine iff_of_true ?_ trivial
    rw [State.call]
    split
    next hnone => exact surfaces_missing rfl hnone
    next x hx => exact surfaces_update hE (h k x hx) hx data w
  | clone k w =>
    refine iff_of_true (surfaces_of_target_eq_none rfl fun n => ?_) trivial
    rw [State.call]
    split
    next => exact List.not_mem_nil
    next x hx =>
      rw [requests_make]
      simp
  | finish k w =>
    rw [State.call]
    split
    next hnone =>
      refine iff_of_true (surfaces_missing rfl hnone) fun _ x hx => ?_
      rw [hnone] at hx
      cases hx
    next x hx =>
      refine (surfaces_finish_iff hE (h k x hx) hx w).trans ?_
      constructor
      · intro hsafe _ y hy
        obtain rfl := Option.some.inj (hx.symm.trans hy)
        exact hsafe
      · exact fun hsafe => hsafe hlive x hx
  | finishXof k outLen w =>
    refine iff_of_true ?_ trivial
    rw [State.call]
    split
    next hnone => exact surfaces_missing rfl hnone
    next x hx => exact surfaces_finishXof hE (h k x hx) hx outLen w
  | drop k =>
    refine iff_of_true (surfaces_of_target_eq_none rfl fun n => ?_) trivial
    rw [State.call]
    split <;> exact List.not_mem_nil

/-- In every run, whatever the build has and however the calls turn out: failures of initialisation
surface, in every call, exactly if `finish` is never called for a context whose initialisation
failed, unless its digest is a XOF. -/
theorem surfaces_iff (hE : Documented E) (b : Build) (events : List (Event ω)) :
    Along (step E b) (fun s a => Surfaces s a (step E b s a).1) {} events ↔
      Along (step E b) Safe {} events :=
  along_iff_along (I := State.Sound E) (fun _ a h => sound_step hE h a)
    (fun _ a h => surfaces_step_iff hE h a) (fun _ _ hx => by cases hx) events

/-- With less than 4 GiB of memory, a call that is not safe aborts the component. -/
theorem abort_of_finish (hE : Documented E) (hmemory : ∀ w, E.malloc w (2 ^ 32 - 1) = false)
    {s : State σ} (h : s.Sound E) {a : Event ω} (ha : ¬Safe s a) :
    (step E b s a).1.outcome = .abort := by
  cases a with
  | finish k w =>
    simp only [Safe, not_forall] at ha
    obtain ⟨hlive, x, hx, hfailed, hxof⟩ := ha
    simp only [step, hlive, State.call, hx, Bool.false_eq_true, if_false]
    show (contextFinish E w x.rep).outcome = .abort
    rw [contextFinish, if_neg hxof, getSize_of_failed hE (h k x hx) hfailed]
    exact if_pos ⟨hmemory w, by decide⟩
  | _ => exact absurd trivial ha

end

/-! ## A small build -/

/-- EVP with contexts that hold their digest and their input; no call fails for want of memory. -/
def referenceEvp : Evp (Option DigestAlgorithm × List Byte) Unit where
  new _ := some (none, [])
  init _ _ a := (true, (some a, []))
  update _ c data := (c.1.isSome, (c.1, c.2 ++ data))
  md c := c.1
  size c := if c.1.isSome then 32 else -1
  final _ c := c.1.map fun _ => List.replicate 32 0
  finalXof _ c n := c.1.map fun _ => List.replicate n 0
  copy _ _ src := (true, src)
  lastError _ := 0
  malloc _ n := decide (n < 2 ^ 31)

theorem documented_referenceEvp : Documented referenceEvp where
  md_new _ c hc := by
    obtain rfl := Option.some.inj hc
    rfl
  md_init _ _ _ _ := rfl
  md_init_fails _ _ _ _ h := by cases h
  md_update _ _ _ := rfl
  update_fails _ c _ h := by simpa [referenceEvp] using h
  size_fails c h := by
    have h : c.1 = none := h
    simp [referenceEvp, h]
  size_nonneg c a h _ := by
    have h : c.1 = some a := h
    simp [referenceEvp, h]
  final_fails _ c h := by
    have h : c.1 = none := h
    simp [referenceEvp, h]
  finalXof_fails _ c n h := by
    have h : c.1 = none := h
    simp [referenceEvp, h]
  md_copy _ _ _ _ := rfl
  md_copy_fails _ _ _ _ h := by cases h

/-- A build that leaves out what can be left out. -/
def smallBuild : Build := ⟨false, false, false⟩

theorem surfaces_smallBuild :
    Along (step referenceEvp smallBuild)
      (fun s a => Surfaces s a (step referenceEvp smallBuild s a).1) {}
      [.construct .sm3 (), .update 0 [1] (), .clone 0 (), .finishXof 0 16 (), .drop 1] :=
  (surfaces_iff documented_referenceEvp smallBuild _).mpr ⟨trivial, trivial, trivial, trivial,
    trivial, trivial⟩

/-- `finish` for a digest that is left out asks for 4 GiB. -/
theorem not_surfaces_sm3 : ¬∀ events : List (Event Unit),
    Along (step referenceEvp smallBuild)
      (fun s a => Surfaces s a (step referenceEvp smallBuild s a).1) {} events := by
  intro h
  obtain ⟨-, hfinish, -⟩ := h [.construct .sm3 (), .finish 0 ()]
  exact hfinish.requests (-1) (by decide) (List.mem_singleton_self _)

end OpenSSLWasm.Digest
