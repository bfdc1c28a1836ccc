import OpenSSLWasm.Tls.Lifetime

/-!
# Endpoints over the life of the component

Endpoints of all types come and go in any order. Each resource is released as often as it was
acquired once its endpoint has failed or ended, and never when it is not held.

## Main definitions

* `State`, `Event` and `step`: the live endpoints, and everything that may happen to them;
* `State.owned`: what belongs to them;
* `State.Gone`: an endpoint does not exist, or no longer does.

## Main results

* `step_cases`: what one step can do;
* `settle_step`: what one step acquires and releases is what comes to belong to the endpoints and
  what no longer does;
* `endpoints_release`: what that means for the life of each endpoint.
-/

namespace OpenSSLWasm.Tls.Lifetime

open Ledger Transcript

/-! ## Everything that may happen -/

/-- An endpoint, with the settings of its `SSL_CTX` or `SSL`. -/
structure Live where
  rep : Rep
  settings : Settings

/-- The live endpoints. -/
structure State where
  live : List Live := []
  /-- The numbers that were given to endpoints. -/
  used : List ℕ := []
  /-- The handles that came with configurations. -/
  passed : List Handle := []

/-- A call of a constructor for the endpoint with a number, or a later call. -/
inductive Event
  | connect (e : ℕ) (host : List Byte) (port : BitVec 16) (cfg : ClientConfig) (env : Env)
  | bind (e : ℕ) (host : List Byte) (port : BitVec 16) (cfg : ServerConfig) (env : Env)
  | accept (e l : ℕ) (env : Env)
  | memBioClientNew (e : ℕ) (cfg : ClientConfig) (env : Env)
  | memBioServerNew (e : ℕ) (cfg : ServerConfig) (env : Env)
  /-- `shutdown`, or any other call that acquires and releases nothing. -/
  | shutdown (e : ℕ)
  /-- libssl logs a line for a connection. -/
  | logs (e : ℕ)
  | drainKeylog (e : ℕ)
  | close (e : ℕ)
  | drop (e : ℕ)

inductive Status
  | done
  | failed (err : TlsError)
  /-- There is no such endpoint, or there is one with that number already. -/
  | impossible
  deriving DecidableEq

/-- What becomes of a call, with its ledger. -/
structure Answer where
  status : Status
  entries : List (Entry Resource) := []

namespace State

variable (s : State)

def find (e : ℕ) : Option Live := s.live.find? (·.rep.id = e)

def without (e : ℕ) : List Live := s.live.eraseP (·.rep.id = e)

/-- A constructor, given some handles. -/
def construct (e : ℕ) (hs : List Handle) (p : Acct Resource (Except TlsError (Rep × Settings))) :
    Answer × State :=
  if e ∈ s.used then (⟨.impossible, []⟩, s)
  else
    let entries := (hs.map .handle).map .acquire ++ p.entries
    let s := { s with used := e :: s.used, passed := hs ++ s.passed }
    match p.result with
    | .error err => (⟨.failed err, entries⟩, s)
    | .ok (rep, settings) => (⟨.done, entries⟩, { s with live := ⟨rep, settings⟩ :: s.live })

/-- The end of an endpoint. -/
def finish (e : ℕ) (p : Rep → Acct Resource Unit) : Answer × State :=
  match s.find e with
  | none => (⟨.impossible, []⟩, s)
  | some x => (⟨.done, (p x.rep).entries⟩, { s with live := s.without e })

/-- The lines of a connection come or go. -/
def setLines (e : ℕ) (lines : Bool) : Answer × State :=
  match s.find e with
  | none => (⟨.impossible, []⟩, s)
  | some x =>
    if x.rep.ssl.isNone then (⟨.impossible, []⟩, s)
    else if x.rep.lines = lines then (⟨.done, []⟩, s)
    else
      (⟨.done, [if lines then .acquire (.lines x.rep.id) else .release (.lines x.rep.id)]⟩,
        { s with live := { x with rep := { x.rep with lines } } :: s.without e })

/-- What belongs to the endpoints, and the handles. -/
def owned : Multiset Resource :=
  ↑(s.live.flatMap (·.rep.owned)) + ↑(s.passed.map Resource.handle)

/-- There is no such endpoint: its constructor has not been called, has failed, or the endpoint has
ended. -/
def Gone (e : ℕ) : Prop := ∀ x ∈ s.live, x.rep.id ≠ e

end State

variable (accepts : Settings → Setting Handle Handle Handle → Bool)

def step (s : State) : Event → Answer × State
  | .connect e host port cfg env =>
    s.construct e (clientHandles cfg) (connect accepts e host port cfg env)
  | .bind e host port cfg env =>
    s.construct e (serverHandles cfg) (bind accepts e host port cfg env)
  | .accept e l env =>
    match s.find l with
    | none => (⟨.impossible, []⟩, s)
    | some x =>
      if x.rep.kind = .serverListener then s.construct e [] (accept e x.rep x.settings env)
      else (⟨.impossible, []⟩, s)
  | .memBioClientNew e cfg env =>
    s.construct e (clientHandles cfg) (memBioClientNew accepts e cfg env)
  | .memBioServerNew e cfg env =>
    s.construct e (serverHandles cfg) (memBioServerNew accepts e cfg env)
  | .shutdown e => (⟨if (s.find e).isSome then .done else .impossible, []⟩, s)
  | .logs e => s.setLines e true
  | .drainKeylog e => s.setLines e false
  | .close e => s.finish e close
  | .drop e => s.finish e destructor

/-! ## What one step acquires and releases -/

/-- The endpoint that a resource was acquired for. -/
def Resource.owner : Resource → Option ℕ
  | handle _ => none
  | ctx e | ssl e _ | addrInfo e | fd e _ | inBio e | outBio e | preKeylog e | lines e
  | hostNul e | alpnList e | alpnWire e | rep e => some e

/-- What belongs to a record was acquired for its endpoint. -/
theorem owner_of_mem_owned {r : Rep} {x : Resource} (h : x ∈ r.owned) : x.owner = some r.id := by
  simp only [Rep.owned, Rep.fields, List.mem_append, List.mem_flatMap, List.mem_map, mem_given,
    Ssl.owned, List.mem_cons, List.not_mem_nil, or_false] at h
  rcases h with (((((⟨s, -, (rfl | ⟨-, rfl⟩) | ⟨-, rfl⟩⟩ | ⟨n, -, rfl⟩) | ⟨-, rfl⟩) | ⟨-, rfl⟩) |
    ⟨-, rfl⟩) | rfl) <;> rfl

namespace State

variable {s : State} {e : ℕ}

/-- What belongs to a found endpoint, and the rest. -/
theorem owned_of_find {x : Live} (h : s.find e = some x) :
    s.owned = ↑x.rep.owned + { s with live := s.without e }.owned := by
  rw [owned, owned, coe_flatMap_find h, add_assoc]
  rfl

theorem settle_construct {hs : List Handle} {p : Acct Resource (Except TlsError (Rep × Settings))}
    (hp : ∀ H : Multiset Resource, (∀ h ∈ hs, .handle h ∈ H) → Triple H p (outcome H)) :
    settle s.owned (s.construct e hs p).1.entries = some (s.construct e hs p).2.owned := by
  unfold construct
  split_ifs with he
  · rfl
  have hpassed : settle s.owned ((hs.map Resource.handle).map .acquire) =
      some (↑(hs.map Resource.handle) + s.owned) := Triple.acquireAll
  have hmem : ∀ h ∈ hs, Resource.handle h ∈ ↑(hs.map Resource.handle) + s.owned := by
    intro h hh
    exact Multiset.mem_add.mpr (Or.inl (List.mem_map_of_mem hh))
  have hentries : settle s.owned ((hs.map Resource.handle).map .acquire ++ p.entries) =
      some (outcome (↑(hs.map Resource.handle) + s.owned) p.result) := by
    rw [settle_append, hpassed, Option.bind_some]
    exact hp _ hmem
  rcases hresult : p.result with err | ⟨rep, settings⟩
  · rw [hresult, outcome] at hentries
    refine hentries.trans (congrArg some ?_)
    simp only [owned, List.map_append, coe_append]
    abel
  · rw [hresult, outcome] at hentries
    refine hentries.trans (congrArg some ?_)
    simp only [owned, List.map_append, coe_append, List.flatMap_cons]
    abel

theorem settle_finish {p : Rep → Acct Resource Unit}
    (hp : ∀ (r : Rep) (m : Multiset Resource),
      Triple ((r.owned : Multiset Resource) + m) (p r) fun _ => m) :
    settle s.owned (s.finish e p).1.entries = some (s.finish e p).2.owned := by
  unfold finish
  split
  next => rfl
  next x hx =>
    rw [owned_of_find hx]
    exact hp x.rep _

theorem settle_setLines (lines : Bool) :
    settle s.owned (s.setLines e lines).1.entries = some (s.setLines e lines).2.owned := by
  unfold setLines
  split
  next => rfl
  next x hx =>
    split_ifs with hssl hlines h
    · rfl
    · rfl
    · -- the first line of a buffer
      obtain rfl := h
      have hrep : x.rep = { x.rep with lines := false } := by
        rw [← Bool.eq_false_of_not_eq_true hlines]
      refine congrArg some ?_
      rw [owned_of_find hx, hrep, ← add_assoc, ← coe_owned_lines, owned, owned]
      simp only [List.flatMap_cons, coe_append, add_assoc]
    · obtain rfl : lines = false := Bool.eq_false_of_not_eq_true h
      have hrep : x.rep = { x.rep with lines := true } := by
        rw [← Bool.eq_true_of_not_eq_false hlines]
      set s' : State := { s with
        live := { x with rep := { x.rep with lines := false } } :: s.without e }
      have howned : s.owned = ((([.lines x.rep.id] : List Resource)) : Multiset Resource) +
          s'.owned := by
        rw [owned_of_find hx, hrep, coe_owned_lines, owned, owned]
        simp only [s', List.flatMap_cons, coe_append, add_assoc, Multiset.coe_singleton]
      rw [howned]
      exact Triple.releaseAll

end State

variable {accepts}

/-- A constructor for the endpoint `e` that is given some handles, in a state. -/
inductive Constructs (accepts : Settings → Setting Handle Handle Handle → Bool) (s : State) (e : ℕ) :
    List Handle → Acct Resource (Except TlsError (Rep × Settings)) → Prop
  | connect (host : List Byte) (port : BitVec 16) (cfg : ClientConfig) (env : Env) :
    Constructs accepts s e (clientHandles cfg) (connect accepts e host port cfg env)
  | bind (host : List Byte) (port : BitVec 16) (cfg : ServerConfig) (env : Env) :
    Constructs accepts s e (serverHandles cfg) (bind accepts e host port cfg env)
  | accept (x : Live) (env : Env) (hx : x ∈ s.live) (hkind : x.rep.kind = .serverListener) :
    Constructs accepts s e [] (accept e x.rep x.settings env)
  | memBioClientNew (cfg : ClientConfig) (env : Env) :
    Constructs accepts s e (clientHandles cfg) (memBioClientNew accepts e cfg env)
  | memBioServerNew (cfg : ServerConfig) (env : Env) :
    Constructs accepts s e (serverHandles cfg) (memBioServerNew accepts e cfg env)

/-- The endpoint whose constructor is called. -/
def Event.constructs : Event → Option ℕ
  | .connect e .. | .bind e .. | .accept e .. | .memBioClientNew e .. | .memBioServerNew e .. =>
    some e
  | _ => none

variable (accepts) in
/-- What one step can do: nothing; construct an endpoint; change the lines of a log; or end an
endpoint. -/
theorem step_cases (s : State) (a : Event) :
    ((step accepts s a).1.entries = [] ∧ (step accepts s a).2 = s ∧
        ∀ err, (step accepts s a).1.status ≠ .failed err) ∨
      (∃ e hs p, step accepts s a = s.construct e hs p ∧ a.constructs = some e ∧
        Constructs accepts s e hs p) ∨
      (∃ e lines, step accepts s a = s.setLines e lines ∧ a.constructs = none) ∨
      ∃ e p, step accepts s a = s.finish e p ∧ (a = .close e ∨ a = .drop e) ∧
        ∀ r, (p r).entries = r.owned.map .release := by
  cases a with
  | connect e host port cfg env =>
    exact Or.inr (Or.inl ⟨e, _, _, rfl, rfl, .connect host port cfg env⟩)
  | bind e host port cfg env => exact Or.inr (Or.inl ⟨e, _, _, rfl, rfl, .bind host port cfg env⟩)
  | accept e l env =>
    rw [step]
    split
    next => exact Or.inl ⟨rfl, rfl, nofun⟩
    next x hx =>
      split_ifs with hkind
      · have hlive : x ∈ s.live := List.mem_of_find?_eq_some hx
        exact Or.inr (Or.inl ⟨e, _, _, rfl, rfl, .accept x env hlive hkind⟩)
      · exact Or.inl ⟨rfl, rfl, nofun⟩
  | memBioClientNew e cfg env =>
    exact Or.inr (Or.inl ⟨e, _, _, rfl, rfl, .memBioClientNew cfg env⟩)
  | memBioServerNew e cfg env =>
    exact Or.inr (Or.inl ⟨e, _, _, rfl, rfl, .memBioServerNew cfg env⟩)
  | shutdown e =>
    refine Or.inl ⟨rfl, rfl, fun err => ?_⟩
    rw [step]
    split_ifs <;> nofun
  | logs e => exact Or.inr (Or.inr (Or.inl ⟨e, true, rfl, rfl⟩))
  | drainKeylog e => exact Or.inr (Or.inr (Or.inl ⟨e, false, rfl, rfl⟩))
  | close e => exact Or.inr (Or.inr (Or.inr ⟨e, _, rfl, Or.inl rfl, entries_close⟩))
  | drop e => exact Or.inr (Or.inr (Or.inr ⟨e, _, rfl, Or.inr rfl, entries_destructor⟩))

section

variable {s : State} {e : ℕ} {hs : List Handle} {p : Acct Resource (Except TlsError (Rep × Settings))}

theorem Constructs.triple (h : Constructs accepts s e hs p) {H : Multiset Resource}
    (hH : ∀ h ∈ hs, .handle h ∈ H) : Triple H p (outcome H) := by
  cases h with
  | connect host port cfg env => exact triple_connect host port cfg env hH
  | bind host port cfg env => exact triple_bind host port cfg env hH
  | accept x env => exact triple_accept x.rep x.settings env
  | memBioClientNew cfg env => exact triple_memBioClientNew cfg env hH
  | memBioServerNew cfg env => exact triple_memBioServerNew cfg env hH

/-- A constructor gives its number to what it makes. -/
theorem Constructs.id_eq (h : Constructs accepts s e hs p) {r : Rep × Settings}
    (hr : p.result = .ok r) : r.1.id = e := by
  cases h with
  | connect host port cfg env =>
    obtain ⟨n, lines, hrep⟩ := rep_connect hr
    rw [hrep, clientRep]
  | bind host port cfg env =>
    obtain ⟨n, hrep⟩ := rep_bind hr
    rw [hrep, serverListenerRep]
  | accept x env =>
    obtain ⟨lines, hrep⟩ := rep_accept hr
    rw [hrep, serverRep]
  | memBioClientNew cfg env => rw [rep_memBioClientNew hr, memBioClientRep]
  | memBioServerNew cfg env => rw [rep_memBioServerNew hr, memBioServerRep]

end

/-- A step acquires what comes to belong to the endpoints, and releases what no longer does. -/
theorem settle_step (s : State) (a : Event) :
    settle s.owned (step accepts s a).1.entries = some (step accepts s a).2.owned := by
  obtain ⟨hnil, hsame, -⟩ | ⟨e, hs, p, hstep, -, hp⟩ | ⟨e, lines, hstep, -⟩ | ⟨e, p, hstep, -, hp⟩ :=
    step_cases accepts s a
  · rw [hnil, hsame]
    rfl
  · rw [hstep]
    exact State.settle_construct fun H hH => hp.triple hH
  · rw [hstep]
    exact State.settle_setLines lines
  · rw [hstep]
    refine State.settle_finish fun r m => ?_
    rw [Triple, hp]
    exact Triple.releaseAll

/-! ## The life of each endpoint -/

/-- The live endpoints have numbers of their own, which were given to them. -/
structure State.Distinct (s : State) : Prop where
  nodup : (s.live.map (·.rep.id)).Nodup
  used : ∀ x ∈ s.live, x.rep.id ∈ s.used

namespace State

variable {s : State} {e : ℕ}

theorem Distinct.without (h : s.Distinct) (e : ℕ) : { s with live := s.without e }.Distinct where
  nodup := h.nodup.sublist ((List.eraseP_sublist).map _)
  used x hx := h.used x (List.mem_of_mem_eraseP hx)

theorem ne_of_mem_eraseP {l : List Live} (h : (l.map (·.rep.id)).Nodup) :
    ∀ x ∈ l.eraseP (·.rep.id = e), x.rep.id ≠ e := by
  induction l with
  | nil => exact fun x hx => absurd hx List.not_mem_nil
  | cons y ys ih =>
    obtain ⟨hy, hys⟩ := List.nodup_cons.mp h
    by_cases hid : y.rep.id = e
    · rw [List.eraseP_cons_of_pos (by simpa using hid)]
      rintro x hx rfl
      exact hy (List.mem_map.mpr ⟨x, hx, hid.symm⟩)
    · rw [List.eraseP_cons_of_neg (by simpa using hid)]
      intro x hx
      rcases List.mem_cons.mp hx with rfl | hx
      · exact hid
      · exact ih hys x hx

theorem Distinct.gone_without (h : s.Distinct) (e : ℕ) :
    { s with live := s.without e }.Gone e :=
  ne_of_mem_eraseP h.nodup

theorem find_id {x : Live} (h : s.find e = some x) : x.rep.id = e := by
  simpa using List.find?_some h

theorem Distinct.construct (h : s.Distinct) {hs : List Handle}
    {p : Acct Resource (Except TlsError (Rep × Settings))}
    (hp : ∀ r, p.result = .ok r → r.1.id = e) : (s.construct e hs p).2.Distinct := by
  unfold State.construct
  split_ifs with he
  · exact h
  rcases hresult : p.result with err | ⟨rep, settings⟩
  · exact ⟨h.nodup, fun x hx => List.mem_cons_of_mem e (h.used x hx)⟩
  · have hid : rep.id = e := hp _ hresult
    refine ⟨List.nodup_cons.mpr ⟨?_, h.nodup⟩, fun x hx => ?_⟩
    · rintro hmem
      obtain ⟨x, hx, hxid⟩ := List.mem_map.mp hmem
      exact he ((hxid.trans hid) ▸ h.used x hx)
    · rcases List.mem_cons.mp hx with rfl | hx
      · exact List.mem_cons.mpr (Or.inl hid)
      · exact List.mem_cons_of_mem e (h.used x hx)

end State

theorem State.Distinct.setLines {s : State} (h : s.Distinct) (e : ℕ) (lines : Bool) :
    (s.setLines e lines).2.Distinct := by
  unfold State.setLines
  split
  next => exact h
  next x hx =>
    split_ifs
    · exact h
    · exact h
    all_goals
      refine ⟨List.nodup_cons.mpr ⟨fun hmem => ?_, (h.without e).nodup⟩, fun y hy => ?_⟩
      · obtain ⟨y, hy, hid⟩ := List.mem_map.mp hmem
        exact h.gone_without e y hy (hid.trans (State.find_id hx : x.rep.id = e))
      · rcases List.mem_cons.mp hy with rfl | hy
        · exact h.used x (List.mem_of_find?_eq_some hx)
        · exact (h.without e).used y hy

/-- A step keeps the numbers apart. -/
theorem distinct_step {s : State} (h : s.Distinct) (a : Event) :
    (step accepts s a).2.Distinct := by
  obtain ⟨-, hsame, -⟩ | ⟨e, hs, p, hstep, -, hp⟩ | ⟨e, lines, hstep, -⟩ | ⟨e, p, hstep, -, -⟩ :=
    step_cases accepts s a
  · rwa [hsame]
  · rw [hstep]
    exact h.construct fun r hr => hp.id_eq hr
  · rw [hstep]
    exact h.setLines e lines
  · rw [hstep, State.finish]
    split
    next => exact h
    next => exact h.without e

theorem distinct_init : State.Distinct {} := ⟨List.nodup_nil, by simp⟩

theorem distinct_run (events : List Event) : (run (step accepts) {} events).2.Distinct := by
  have hstep : ∀ s a, State.Distinct s → (step accepts s a).2.Distinct :=
    fun s a h => distinct_step h a
  exact run_preserves hstep distinct_init events

theorem State.Distinct.gone_finish {s : State} (h : s.Distinct) (e : ℕ)
    (p : Rep → Acct Resource Unit) : (s.finish e p).2.Gone e := by
  unfold State.finish
  split
  next hx =>
    intro x hxl hid
    exact absurd (List.find?_eq_none.mp hx x hxl) (by simpa using hid)
  next => exact h.gone_without e

theorem State.Distinct.gone_construct {s : State} (h : s.Distinct) {e : ℕ} {hs : List Handle}
    {p : Acct Resource (Except TlsError (Rep × Settings))} {err : TlsError}
    (herr : (s.construct e hs p).1.status = .failed err) : (s.construct e hs p).2.Gone e := by
  unfold State.construct at herr ⊢
  split_ifs at herr ⊢ with he
  rcases hresult : p.result with err' | ⟨rep, settings⟩
  · rintro x hx rfl
    exact he (h.used x hx)
  · rw [hresult] at herr
    cases herr

/-- A constructor that fails leaves no endpoint, and neither does an end. -/
theorem gone_step {s : State} (h : s.Distinct) (a : Event) {e : ℕ}
    (ha : a = .close e ∨ a = .drop e ∨
      a.constructs = some e ∧ ∃ err, (step accepts s a).1.status = .failed err) :
    (step accepts s a).2.Gone e := by
  rcases ha with rfl | rfl | ⟨ha, err, herr⟩
  · exact h.gone_finish e _
  · exact h.gone_finish e _
  obtain ⟨-, -, hnot⟩ | ⟨e', hs, p, hstep, ha', -⟩ | ⟨e', lines, -, ha'⟩ | ⟨e', p, -, ha', -⟩ :=
    step_cases accepts s a
  · exact absurd herr (hnot err)
  · obtain rfl : e' = e := Option.some.inj (ha'.symm.trans ha)
    rw [hstep] at herr ⊢
    exact h.gone_construct herr
  · rw [ha'] at ha
    cases ha
  · rcases ha' with rfl | rfl <;> cases ha

theorem State.mem_owned {s : State} {r : Resource} {e : ℕ} (hr : r.owner = some e)
    (h : r ∈ s.owned) : ∃ x ∈ s.live, x.rep.id = e := by
  rcases Multiset.mem_add.mp h with h | h
  · obtain ⟨x, hx, hmem⟩ := List.mem_flatMap.mp h
    exact ⟨x, hx, Option.some.inj ((owner_of_mem_owned hmem).symm.trans hr)⟩
  · obtain ⟨h, -, rfl⟩ := List.mem_map.mp h
    cases hr

theorem settle_log (events : List Event) :
    settle 0 (log Answer.entries (run (step accepts) {} events).1) =
      some (run (step accepts) {} events).2.owned := by
  have hstep : ∀ s a, True → settle (State.owned s) (step accepts s a).1.entries =
      some (State.owned (step accepts s a).2) ∧ True := fun s a _ => ⟨settle_step s a, trivial⟩
  exact (settle_run (s := ({} : State)) hstep trivial events).1

/-- In any order of constructors that succeed or fail anywhere, and of calls on what they made:
nothing is released or used that is not held; an endpoint that has failed or ended is gone, and
every resource that was acquired for it has been released as often as it was acquired; and what
belongs to a live endpoint has not been released. -/
theorem endpoints_release (events : List Event) :
    let l := log Answer.entries (run (step accepts) {} events).1
    let s := (run (step accepts) {} events).2
    (settle 0 l).isSome ∧
      (∀ a e, (a = .close e ∨ a = .drop e ∨
          a.constructs = some e ∧ ∃ err, (step accepts s a).1.status = .failed err) →
        (step accepts s a).2.Gone e) ∧
      (∀ e, s.Gone e → ∀ r : Resource, r.owner = some e →
        l.count (.release r) = l.count (.acquire r)) ∧
      ∀ x ∈ s.live, ∀ r ∈ x.rep.owned, l.count (.release r) < l.count (.acquire r) := by
  intro l s
  have h : settle 0 l = some s.owned := settle_log events
  have hdistinct : s.Distinct := distinct_run events
  refine ⟨by rw [h]; rfl, fun a e ha => gone_step hdistinct a ha, fun e he r hr => ?_,
    fun x hx r hr => ?_⟩
  · have hcount := count_settle h r
    have hnot : s.owned.count r = 0 := by
      refine Multiset.count_eq_zero.mpr fun hmem => ?_
      obtain ⟨x, hx, hid⟩ := State.mem_owned hr hmem
      exact he x hx hid
    rw [hnot, Multiset.count_zero] at hcount
    omega
  · have hcount := count_settle h r
    have hpos : 0 < s.owned.count r :=
      Multiset.count_pos.mpr (Multiset.mem_add.mpr (Or.inl (List.mem_flatMap.mpr ⟨x, hx, hr⟩)))
    rw [Multiset.count_zero] at hcount
    omega

end OpenSSLWasm.Tls.Lifetime
