import OpenSSLWasm.Lib.Absorb
import OpenSSLWasm.Mac.Basic

/-!
# Codes of streams

A context is set up with a key and parameters, absorbs a message in chunks and may be copied in the
middle. Its end is to give the code of the whole message, as the one-shot call computes it. What
another call left in the static length does not matter to it.

## Main definitions

* `Macs`: what is documented of the results of the EVP functions;
* `Reliable`: they fail on nothing but what they do not take;
* `Opening` and `noteOf`: what the caller knows of contexts.

## Main results

* `setUp`, `result_newMacCtx`: setting up depends on nothing that calls share;
* `carries_step`: a context has absorbed what its caller knows of;
* `finish_eq_tag`: it gives the code of that, and so does the one-shot call.
-/

namespace OpenSSLWasm.Mac

open Absorb Kdf SizeProbe Transcript

/-! ## What is documented -/

/-- What a context is set up with, as the EVP functions see it. -/
structure Setup where
  name : List Byte
  key : List Byte
  values : List (List Byte × ParamValue)

/-- The codes. -/
abbrev TagFunction := Setup → List Byte → List Byte

section

variable {σ ω : Type} (E : Evp σ ω) (F : TagFunction) (Has : σ → Setup → List Byte → Prop)

/-- What is documented of results: a context `Has` a set-up and the data that it was given, and
gives the code of that. -/
structure Macs : Prop where
  init : ∀ w c name key values, E.new w name = some c → (E.init w c key values).1 = true →
    Has (E.init w c key values).2 ⟨name, key, values⟩ []
  update : ∀ w c k d data, Has c k d → (E.update w c data).1 = true →
    Has (E.update w c data).2 k (d ++ data)
  dup : ∀ w c k d, Has c k d → ∀ c' ∈ E.dup w c, Has c' k d
  /-- A question for the size changes nothing. -/
  question : ∀ w c k d, Has c k d → Has (E.final w c none).2 k d
  final : ∀ w c k d n out, Has c k d → (E.final w c (some n)).1 = .result out → out = F k d

/-- What the EVP functions take. -/
structure Support where
  provided : List Byte → Bool
  accepts : Setup → Bool

variable (R : Support)

/-- They fail on nothing else. -/
structure Reliable : Prop where
  fetch : ∀ w name, E.fetch w name = R.provided name
  new : ∀ w name, E.new w name ≠ none
  init : ∀ w c name key values, E.new w name = some c →
    (E.init w c key values).1 = R.accepts ⟨name, key, values⟩
  update : ∀ w c k d data, Has c k d → (E.update w c data).1 = true
  dup : ∀ w c k d, Has c k d → E.dup w c ≠ none
  final : ∀ w c k d, Has c k d → probeThenCall (E.final w) 0 c ≠ none

end

/-! ## What the caller knows -/

/-- What a context is constructed with. -/
structure Opening where
  alg : Algorithm
  key : List Byte
  params : Params

/-- What the EVP functions see of it, if it has the parameters of its algorithm. -/
def Opening.setup (o : Opening) : Option Setup :=
  match macName o.alg, paramValues o.alg o.params with
  | some name, .ok values => some ⟨name, o.key, values⟩
  | _, _ => none

def Opening.accepted (R : Support) (o : Opening) : Bool :=
  o.setup.any fun k => R.provided k.name && R.accepts k

/-- The code of some data. -/
def Opening.tag (F : TagFunction) (o : Opening) (data : List Byte) : List Byte :=
  o.setup.elim [] (F · data)

/-- What an answer tells about the contexts. -/
def noteOf {ω : Type} : Event ω × Reply → Option (Note Opening Byte)
  | (.construct alg key p _, r) =>
    match r.outcome with
    | .context h => some (.opened h ⟨alg, key, p⟩)
    | _ => none
  | (.update h data _, r) => some (if r.outcome = .done then .absorbed h data else .lost h)
  | (.clone h _, r) =>
    match r.outcome with
    | .context h' => some (.copied h h')
    | _ => none
  | (.finish h _, _) => some (.lost h)
  | (.drop h, _) => some (.lost h)
  | (.oneShot .., _) => none
  | (.elsewhere _, _) => none

section

variable {σ ω : Type} {E : Evp σ ω} {F : TagFunction} {Has : σ → Setup → List Byte → Prop}
  {R : Support}

/-! ## Setting up -/

/-- The context of a set-up; it depends on nothing that calls share. -/
def setUp (E : Evp σ ω) (w : ω) (o : Opening) : Option σ := do
  let name ← macName o.alg
  if E.fetch w name = false then none
  else do
    let c ← E.new w name
    let values ← (paramValues o.alg o.params).toOption
    match E.init w c o.key values with
    | (true, c) => some c
    | (false, _) => none

theorem result_newMacCtx (w : ω) (h : ℕ) (o : Opening) (st : Statics) :
    (newMacCtx E w h o.alg o.key o.params st).result.1.toOption = setUp E w o := by
  obtain ⟨alg, key, p⟩ := o
  unfold newMacCtx setUp
  dsimp only
  rcases macName alg with _ | name
  · rfl
  dsimp only [Option.bind_eq_bind, Option.bind_some]
  generalize st.push (E.errors w) = st
  by_cases hfetch : E.fetch w name = false
  · rw [if_pos hfetch, if_pos hfetch]
    rfl
  rw [if_neg hfetch, if_neg hfetch]
  rcases E.new w name with _ | c
  · rfl
  -- the scratch that is read is the one that was written
  rw [← read_buildMacParams alg p st.kmacSizeScratch]
  dsimp only [Ledger.Acct.result_bind, Option.bind_some]
  rcases (buildMacParams alg p st.kmacSizeScratch).1 with e | params
  · rfl
  dsimp only [Ledger.Acct.result_bind, Except.map, Except.toOption, Option.bind_some]
  rcases E.init w c key _ with ⟨_ | _, c'⟩ <;> rfl

theorem setUp_eq_some {w : ω} {o : Opening} {c : σ} :
    setUp E w o = some c ↔ ∃ k c₀, o.setup = some k ∧ E.fetch w k.name = true ∧
      E.new w k.name = some c₀ ∧ E.init w c₀ k.key k.values = (true, c) := by
  unfold setUp Opening.setup
  rcases macName o.alg with _ | name
  · simp
  rcases paramValues o.alg o.params with e | values
  · simp [Except.toOption]
  by_cases hfetch : E.fetch w name = true
  · rcases hnew : E.new w name with _ | c₀
    · simp [hfetch, hnew]
    · rcases hinit : E.init w c₀ o.key values with ⟨_ | _, c'⟩ <;>
        simp [hfetch, hnew, hinit, Except.toOption]
  · simp [hfetch]

theorem has_of_setUp (hE : Macs E F Has) {w : ω} {o : Opening} {c : σ}
    (h : setUp E w o = some c) : ∃ k, o.setup = some k ∧ Has c k [] := by
  obtain ⟨k, c₀, hk, -, hnew, hinit⟩ := setUp_eq_some.mp h
  have hhas := hE.init w c₀ k.name k.key k.values hnew (by rw [hinit])
  rw [hinit] at hhas
  exact ⟨k, hk, hhas⟩

theorem isSome_setUp (hR : Reliable E Has R) (w : ω) (o : Opening) :
    (setUp E w o).isSome = o.accepted R := by
  rw [Bool.eq_iff_iff, Option.isSome_iff_exists, Opening.accepted, Option.any_eq_true]
  simp only [setUp_eq_some, Bool.and_eq_true]
  constructor
  · rintro ⟨c, k, c₀, hk, hfetch, hnew, hinit⟩
    refine ⟨k, hk, hR.fetch w k.name ▸ hfetch, ?_⟩
    rw [← hR.init w c₀ k.name k.key k.values hnew, hinit]
  · rintro ⟨k, hk, hprovided, haccepts⟩
    obtain ⟨c₀, hnew⟩ := Option.ne_none_iff_exists'.mp (hR.new w k.name)
    refine ⟨(E.init w c₀ k.key k.values).2, k, c₀, hk, (hR.fetch w k.name).trans hprovided, hnew,
      Prod.ext ?_ rfl⟩
    exact (hR.init w c₀ k.name k.key k.values hnew).trans haccepts

/-! ## Ends -/

/-- The end asks for the size first. -/
theorem result_macFinal (w : ω) (h : ℕ) (c : σ) :
    (macFinal E w h c).result = probeThenCall (E.final w) 0 c := by
  unfold macFinal probeThenCall
  rcases E.final w c none with ⟨_ | n | r, c'⟩
  · rfl
  · dsimp only [Ledger.Acct.result_bind]
    rcases E.final w c' (some n) with ⟨_ | m | out, c''⟩ <;> rfl
  · rfl

theorem probeThenCall_of_has (hE : Macs E F Has) {w : ω} {c : σ} {k : Setup} {d : List Byte}
    (h : Has c k d) : ∀ out ∈ probeThenCall (E.final w) 0 c, out = F k d := by
  intro out hout
  have hquestion := hE.question w c k d h
  rw [probeThenCall] at hout
  rcases hfinal : E.final w c none with ⟨_ | n | r, c'⟩
  · simp [hfinal] at hout
  · rw [hfinal] at hout hquestion
    dsimp only at hout hquestion
    rcases hsecond : (E.final w c' (some n)).1 with _ | m | r
    · simp [hsecond] at hout
    · simp [hsecond, Answer.result?] at hout
    · obtain rfl : r = out := by simpa [hsecond] using hout
      exact hE.final w c' k d n r hquestion hsecond
  · simp [hfinal] at hout

/-- Set-up, update and end on one context. -/
theorem toOption_oneShot (w : ω) (h : ℕ) (o : Opening) (data : List Byte) (st : Statics) :
    (oneShot E w h o.alg o.key data o.params st).result.1.toOption =
      (setUp E w o).bind fun c =>
        if (E.update w c data).1 then probeThenCall (E.final w) 0 (E.update w c data).2
        else none := by
  rw [← result_newMacCtx w h o st]
  unfold oneShot
  dsimp only [Ledger.Acct.result_bind]
  rcases (newMacCtx E w h o.alg o.key o.params st).result.1 with e | c
  · rfl
  · dsimp only [Ledger.Acct.result_bind, Except.toOption, Option.bind_some]
    rcases E.update w c data with ⟨_ | _, c'⟩
    · rfl
    · dsimp only [Ledger.Acct.result_bind]
      rw [result_macFinal, if_pos rfl]
      rcases probeThenCall (E.final w) 0 c' with _ | out <;> rfl

theorem toOption_contextFinish (w : ω) (h : ℕ) (x : Option σ) (st : Statics) :
    (contextFinish E w h x st).result.1.toOption = x.bind (probeThenCall (E.final w) 0) := by
  rcases x with _ | c
  · rfl
  · unfold contextFinish
    dsimp only [Ledger.Acct.result_bind, Option.bind_some]
    rw [result_macFinal]
    rcases probeThenCall (E.final w) 0 c with _ | out <;> rfl

theorem ofBytes_eq_bytes {r : Except MacError (List Byte)} {b : List Byte} :
    Outcome.ofBytes r = .bytes b ↔ r.toOption = some b := by
  rcases r with e | b' <;> simp [Outcome.ofBytes, Except.toOption]

/-! ## Steps -/

/-- A context that was set up has absorbed the data; where the EVP functions are reliable, it was set
up if they take what it was opened with. -/
structure Holds (E : Evp σ ω) (Has : σ → Setup → List Byte → Prop) (R : Support) (x : Option σ)
    (a : Opening × List Byte) : Prop where
  has : ∀ c ∈ x, ∃ k, a.1.setup = some k ∧ Has c k a.2
  isSome : Reliable E Has R → x.isSome = a.1.accepted R

theorem holds_constructor (hE : Macs E F Has) (w : ω) (h : ℕ) (o : Opening) (st : Statics) :
    Holds E Has R (constructorContext E w h o.alg o.key o.params st).result.1 (o, []) := by
  have hctx : (constructorContext E w h o.alg o.key o.params st).result.1 = setUp E w o := by
    rw [← result_newMacCtx w h o st]
    unfold constructorContext
    dsimp only [Ledger.Acct.result_bind]
    rcases (newMacCtx E w h o.alg o.key o.params st).result.1 with e | c <;> rfl
  rw [hctx]
  exact ⟨fun c hc => has_of_setUp hE hc, fun hR => isSome_setUp hR w o⟩

theorem holds_update (hE : Macs E F Has) {w : ω} {h : ℕ} {x : Option σ} {data : List Byte}
    {st : Statics} (hdone : (contextUpdate E w h x data st).result.1 = .ok ()) {o : Opening}
    {d : List Byte} (hx : Holds E Has R x (o, d)) :
    Holds E Has R (contextUpdate E w h x data st).result.2.1 (o, d ++ data) := by
  rcases x with _ | c
  · cases hdone
  · obtain ⟨k, hk, hhas⟩ := hx.has c rfl
    have hupdate := hE.update w c k d data hhas
    unfold contextUpdate at hdone ⊢
    dsimp only [Ledger.Acct.result_bind] at hdone ⊢
    rcases hu : E.update w c data with ⟨_ | _, c'⟩
    · rw [hu] at hdone
      cases hdone
    · rw [hu] at hupdate
      refine ⟨fun c₁ hc₁ => ⟨k, hk, ?_⟩, hx.isSome⟩
      obtain rfl := Option.some.inj hc₁
      exact hupdate rfl

theorem holds_clone (hE : Macs E F Has) (w : ω) (h h' : ℕ) (st : Statics) {x : Option σ}
    {a : Opening × List Byte} (hx : Holds E Has R x a) :
    Holds E Has R (contextClone E w h h' x st).result.1 a := by
  have hctx : (contextClone E w h h' x st).result.1 = x.bind (E.dup w) := by
    unfold contextClone
    rcases x with _ | c
    · rfl
    · dsimp only [Ledger.Acct.result_bind, Option.bind_some]
      rcases E.dup w c with _ | c' <;> rfl
  rw [hctx]
  rcases x with _ | c
  · exact hx
  · obtain ⟨k, hk, hhas⟩ := hx.has c rfl
    refine ⟨fun c' hc' => ⟨k, hk, hE.dup w c k a.2 hhas c' hc'⟩, fun hR => ?_⟩
    obtain ⟨c', hc'⟩ := Option.ne_none_iff_exists'.mp (hR.dup w c k a.2 hhas)
    rw [Option.bind_some, hc']
    exact hx.isSome hR

/-- In every answer the caller learns what the contexts hold. -/
theorem carries_step (hE : Macs E F Has) (s : State σ) (a : Event ω) :
    Carries (InTable (Holds E Has R) s.contexts) (InTable (Holds E Has R) (step E s a).2.contexts)
      (noteOf (a, (step E s a).1)) := by
  cases a with
  | oneShot alg key data p w => exact carries_none
  | construct alg key p w =>
    exact carries_insert_opened (holds_constructor hE w s.contexts.next ⟨alg, key, p⟩ s.statics)
  | update h data w =>
    rcases hx : s.contexts.entry h with _ | x
    · simp only [step, hx]
      exact carries_lost
    · simp only [step, hx, noteOf]
      rcases hr : (contextUpdate E w h x data s.statics).result.1 with e | u
      · exact carries_set_lost
      · exact carries_set_absorbed hx fun o d => holds_update hE hr
  | finish h w =>
    rcases hx : s.contexts.entry h with _ | x
    · simp only [step, hx]
      exact carries_lost
    · simp only [step, hx]
      exact carries_remove_lost
  | clone h w =>
    rcases hx : s.contexts.entry h with _ | x
    · simp only [step, hx]
      exact carries_none
    · simp only [step, hx]
      exact carries_insert_copied hx fun a => holds_clone hE w h s.contexts.next s.statics
  | drop h =>
    rcases hx : s.contexts.entry h with _ | x
    · simp only [step, hx]
      exact carries_lost
    · simp only [step, hx]
      exact carries_remove_lost
  | elsewhere queue => exact carries_none

/-! ## Codes -/

/-- What a set-up makes of some data. -/
theorem Opening.tag_eq {o : Opening} {k : Setup} (hk : o.setup = some k) (data : List Byte) :
    o.tag F data = F k data := by
  rw [Opening.tag, hk]
  rfl

theorem eq_some_of_forall_mem {α : Type} {o : Option α} {a : α} (ho : o ≠ none)
    (h : ∀ b ∈ o, b = a) : o = some a := by
  obtain ⟨b, rfl⟩ := Option.ne_none_iff_exists'.mp ho
  rw [h b rfl]

theorem finish_gives (hE : Macs E F Has) {x : Option σ} {o : Opening} {d : List Byte}
    (hx : Holds E Has R x (o, d)) (w : ω) :
    ∀ out ∈ x.bind (probeThenCall (E.final w) 0), out = o.tag F d := by
  intro out hout
  obtain ⟨c, hc, hout⟩ := Option.bind_eq_some_iff.mp hout
  obtain ⟨k, hk, hhas⟩ := hx.has c hc
  rw [Opening.tag_eq hk]
  exact probeThenCall_of_has hE hhas out hout

theorem oneShot_gives (hE : Macs E F Has) (w : ω) (h : ℕ) (o : Opening) (data : List Byte)
    (st : Statics) :
    ∀ out ∈ (oneShot E w h o.alg o.key data o.params st).result.1.toOption, out = o.tag F data := by
  intro out hout
  rw [toOption_oneShot] at hout
  obtain ⟨c, hc, hout⟩ := Option.bind_eq_some_iff.mp hout
  obtain ⟨hok, hout⟩ := Option.ite_none_right_eq_some.mp hout
  obtain ⟨k, hk, hhas⟩ := has_of_setUp hE hc
  rw [Opening.tag_eq hk]
  exact probeThenCall_of_has hE (hE.update w c k [] data hhas hok) out hout

/-- The end of a context that was set up, and of one that was not. -/
theorem finish_of_reliable (hE : Macs E F Has) (hR : Reliable E Has R) {x : Option σ} {o : Opening}
    {d : List Byte} (hx : Holds E Has R x (o, d)) (w : ω) (h : ℕ) (st : Statics) :
    Outcome.ofBytes (contextFinish E w h x st).result.1 =
      if o.accepted R then .bytes (o.tag F d) else .error (.internal st.lastError) := by
  rw [← hx.isSome hR]
  rcases x with _ | c
  · rfl
  · obtain ⟨k, -, hhas⟩ := hx.has c rfl
    rw [if_pos Option.isSome_some, ofBytes_eq_bytes, toOption_contextFinish]
    exact eq_some_of_forall_mem (hR.final w c k d hhas) (finish_gives hE hx w)

theorem oneShot_of_reliable (hE : Macs E F Has) (hR : Reliable E Has R) (w : ω) (h : ℕ)
    (o : Opening) (data : List Byte) (st : Statics) :
    (oneShot E w h o.alg o.key data o.params st).result.1.toOption = some (o.tag F data) ↔
      o.accepted R = true := by
  have hgives := oneShot_gives hE w h o data st
  rw [← isSome_setUp hR w o]
  rw [toOption_oneShot] at hgives ⊢
  rcases hc : setUp E w o with _ | c
  · simp
  · obtain ⟨k, -, hhas⟩ := has_of_setUp hE hc
    have hupdate := hR.update w c k [] data hhas
    have hfinal := hR.final w _ k _ (hE.update w c k [] data hhas hupdate)
    rw [hc, Option.bind_some, if_pos hupdate] at hgives
    rw [Option.bind_some, if_pos hupdate]
    exact iff_of_true (eq_some_of_forall_mem hfinal hgives) rfl

/-! ## Runs -/

/-- After any run of calls on contexts that come, are copied and go, with any other calls between
them: a context of which its caller knows what it has absorbed gives nothing but the code of that, as
does the one-shot call. Where the EVP functions are reliable, both give it exactly if those take the
key and the parameters; if not, the constructor has given a context all the same, and only its end
fails. -/
theorem finish_eq_tag (hE : Macs E F Has) (events : List (Event ω)) {h : ℕ} {o : Opening}
    {d : List Byte} (hknown : known noteOf (run (step E) {} events).1 h = some (o, d))
    (w : ω) :
    let s := (run (step E) {} events).2
    (∀ b, (step E s (.finish h w)).1.outcome = .bytes b → b = o.tag F d) ∧
    (∀ b, (step E s (.oneShot o.alg o.key d o.params w)).1.outcome = .bytes b →
      b = o.tag F d) ∧
    ∀ R, Reliable E Has R →
      ((step E s (.finish h w)).1.outcome =
        if o.accepted R then .bytes (o.tag F d) else .error (.internal s.statics.lastError)) ∧
      ((step E s (.oneShot o.alg o.key d o.params w)).1.outcome = .bytes (o.tag F d) ↔
        o.accepted R = true) := by
  intro s
  have hholds (R : Support) : InTable (Holds E Has R) s.contexts h (o, d) :=
    known_run (I := fun _ => True) (R := fun s => InTable (Holds E Has R) s.contexts)
      (fun s a _ => ⟨carries_step hE s a, trivial⟩) trivial events hknown
  obtain ⟨x, hx, -⟩ := hholds ⟨fun _ => false, fun _ => false⟩
  have hfinish : (step E s (.finish h w)).1.outcome =
      .ofBytes (contextFinish E w h x s.statics).result.1 := by
    simp only [step, hx]
  rw [hfinish]
  refine ⟨fun b hb => ?_, fun b hb => ?_, fun R hR => ⟨?_, ?_⟩⟩
  · rw [ofBytes_eq_bytes, toOption_contextFinish] at hb
    exact finish_gives hE (inTable_of_entry (hholds ⟨fun _ => false, fun _ => false⟩) hx) w b hb
  · exact oneShot_gives hE w s.contexts.next o d s.statics b (ofBytes_eq_bytes.mp hb)
  · exact finish_of_reliable hE hR (inTable_of_entry (hholds R) hx) w h s.statics
  · exact ofBytes_eq_bytes.trans (oneShot_of_reliable hE hR w s.contexts.next o d s.statics)

end

/-! ## A code that is a sum -/

/-- Contexts with what they were set up with and their data; the code is the sum of key and data. An
empty key is not taken. -/
def sumEvp : Evp (Setup × List Byte) Unit where
  fetch _ _ := true
  new _ name := some (⟨name, [], []⟩, [])
  init _ c key values := (!key.isEmpty, (⟨c.1.name, key, values⟩, []))
  update _ c data := (true, (c.1, c.2 ++ data))
  final _ c
    | none => (.size 1, c)
    | some _ => (.result [c.1.key.sum + c.2.sum], c)
  dup _ c := some c
  errors _ := []

def sumTag : TagFunction := fun k d => [k.key.sum + d.sum]

theorem macs_sumEvp : Macs sumEvp sumTag fun c k d => c = (k, d) where
  init _ c name key values hnew _ := by
    obtain rfl := Option.some.inj hnew
    rfl
  update _ c k d data h _ := by
    subst h
    rfl
  dup _ c k d h c' hc' := (Option.some.inj hc').symm.trans h
  question _ _ _ _ h := h
  final _ c k d n out h hout := by
    subst h
    exact (Answer.result.inj hout).symm

theorem reliable_sumEvp :
    Reliable sumEvp (fun c k d => c = (k, d)) ⟨fun _ => true, fun k => !k.key.isEmpty⟩ where
  fetch _ _ := rfl
  new _ _ := Option.some_ne_none _
  init _ _ _ _ _ _ := rfl
  update _ _ _ _ _ _ := rfl
  dup _ _ _ _ _ := Option.some_ne_none _
  final _ _ _ _ _ := Option.some_ne_none _

def sumEvents : List (Event Unit) :=
  [.construct .hmac [1] (.hmac .sha256) (), .update 0 [2] (), .clone 0 (), .update 1 [40] (),
    .construct .kmac128 [1] (.hmac .sha256) ()]

/-- The copy goes on by itself; the last context got the parameters of another algorithm. -/
theorem finish_sumEvp :
    let s := (run (step sumEvp) {} sumEvents).2
    (step sumEvp s (.finish 0 ())).1.outcome = .bytes [3] ∧
      (step sumEvp s (.finish 1 ())).1.outcome = .bytes [43] ∧
      (step sumEvp s (.finish 2 ())).1.outcome = .error (.internal 0) :=
  have key (h : ℕ) (o : Opening) (d : List Byte)
      (hknown : known noteOf (run (step sumEvp) {} sumEvents).1 h = some (o, d)) :=
    ((finish_eq_tag macs_sumEvp sumEvents hknown ()).2.2 _ reliable_sumEvp).1
  ⟨key 0 ⟨.hmac, [1], .hmac .sha256⟩ [2] rfl, key 1 ⟨.hmac, [1], .hmac .sha256⟩ [2, 40] rfl,
    key 2 ⟨.kmac128, [1], .hmac .sha256⟩ [] rfl⟩

end OpenSSLWasm.Mac
