import OpenSSLWasm.Tls.Ownership

/-!
# The argument of `alpn_select_cb` over its life

The callback of an `SSL_CTX` points to a buffer of the endpoint that made the context. A listener
frees it when it ends, but connections that it has accepted keep its context.

## Main definitions

* `ArgValid`: at every moment, the arguments of the callbacks of contexts that are alive have not
  been freed;
* `State.EndsAlone`: a listener with a callback ends after the connections that it has accepted;
* `Wired`: how callbacks, contexts and endpoints belong together.

## Main results

* `Constructs.wires`: what a constructor does about callbacks;
* `wired_step`: a step keeps `Wired`;
* `argValid_step_iff`, `argValid_iff`: the arguments stay valid exactly if every listener with a
  callback ends after the connections that it has accepted.
-/

namespace OpenSSLWasm.Tls.Lifetime

open Ledger Transcript

/-- What the calls for an endpoint may be about whose `SSL` uses the context of `c`. -/
def Concerns (e c : ℕ) : Resource → Prop
  | .handle _ => True
  | .ssl e' c' => e' = e ∧ c' = c
  | r => r.owner = some e

section

variable {accepts : Settings → Setting Handle Handle Handle → Bool} {e : ℕ}

theorem concerns_alpnList (c : ℕ) (alpn : Option AlpnOffer) :
    (alpnList e alpn).Within (Concerns e c) :=
  within_alpnList (P := Concerns e c) rfl alpn

theorem concerns_connectTcp (c : ℕ) (as : Option (List Attempt)) :
    (connectTcp e as).Within (Concerns e c) :=
  within_connectTcp (P := Concerns e c) (fun _ => rfl) rfl as

theorem within_connect (host : List Byte) (port : BitVec 16) (cfg : ClientConfig) (env : Env) :
    (connect accepts e host port cfg env).Within (Concerns e e) := by
  unfold connect
  simp only [Acct.within_ite, Acct.within_bind]
  cases (connectTcp e (env.attempts (cString host) port)).result <;>
  simp [clientAlpn, Concerns, Resource.owner, forall_mem_given, concerns_alpnList,
    concerns_connectTcp, Ssl.owned, or_imp, forall_and]

theorem within_bind (host : List Byte) (port : BitVec 16) (cfg : ServerConfig) (env : Env) :
    (bind accepts e host port cfg env).Within (Concerns e e) := by
  unfold bind bindTcp
  simp only [Acct.within_ite, Acct.within_bind]
  cases (connectTcp e (env.attempts (cString host) port)).result <;>
  simp [serverAlpn, Concerns, Resource.owner, forall_mem_given, concerns_alpnList,
    concerns_connectTcp]

theorem within_accept (lr : Rep) (ctx : Settings) (env : Env) :
    (accept e lr ctx env).Within (Concerns e lr.id) := by
  unfold accept
  simp [Concerns, Resource.owner, forall_mem_given, Ssl.owned, or_imp, forall_and]

theorem within_memBioClientNew (cfg : ClientConfig) (env : Env) :
    (memBioClientNew accepts e cfg env).Within (Concerns e e) := by
  unfold memBioClientNew
  simp [clientAlpn, Concerns, Resource.owner, forall_mem_given, concerns_alpnList, Ssl.owned,
    or_imp, forall_and]

theorem within_memBioServerNew (cfg : ServerConfig) (env : Env) :
    (memBioServerNew accepts e cfg env).Within (Concerns e e) := by
  unfold memBioServerNew
  simp [serverAlpn, Concerns, Resource.owner, forall_mem_given, concerns_alpnList, Ssl.owned,
    or_imp, forall_and]

/-! ## When the callback is installed -/

variable {c : ℕ}

theorem use_not_mem_connect (host : List Byte) (port : BitVec 16) (cfg : ClientConfig)
    (env : Env) : .use (.alpnWire c) ∉ (connect accepts e host port cfg env).entries := by
  have hlist : .use (.alpnWire c) ∉ (alpnList e cfg.alpn).entries := not_mem_alpnList (by simp) _
  have htcp : .use (.alpnWire c) ∉ (connectTcp e (env.attempts (cString host) port)).entries :=
    not_mem_connectTcp (by simp) (by simp) _
  unfold connect
  simp only [Acct.entries_ite, Acct.entries_bind]
  cases (connectTcp e (env.attempts (cString host) port)).result with
  | none => split_ifs <;> simp [clientAlpn, hlist, htcp]
  | some n =>
    simp only [Acct.entries_ite, Acct.entries_bind]
    split_ifs <;> simp [clientAlpn, hlist, htcp]

theorem use_not_mem_accept (lr : Rep) (ctx : Settings) (env : Env) :
    .use (.alpnWire c) ∉ (accept e lr ctx env).entries := by
  unfold accept
  simp only [Acct.entries_ite, Acct.entries_bind]
  split_ifs <;> simp

theorem use_not_mem_memBioClientNew (cfg : ClientConfig) (env : Env) :
    .use (.alpnWire c) ∉ (memBioClientNew accepts e cfg env).entries := by
  have hlist : .use (.alpnWire c) ∉ (alpnList e cfg.alpn).entries := not_mem_alpnList (by simp) _
  unfold memBioClientNew
  simp only [Acct.entries_ite, Acct.entries_bind]
  split_ifs <;> simp [clientAlpn, hlist]

/-- What a constructor says about the record that it makes. -/
structure WiresRep (e c : ℕ) (installed : Prop) (r : Rep) : Prop where
  installed : r.alpnWire = true → installed
  ssl : ∀ x ∈ r.ssl, x.ctx = c
  id : r.id = e
  /-- A listener has its context, and no `SSL`. -/
  listener : r.kind = .serverListener → r.ctx = true ∧ r.ssl = none

/-- What a constructor of the endpoint `e`, whose `SSL` uses the context of `c`, does about
callbacks. -/
structure Wires (e c : ℕ) (p : Acct Resource (Except TlsError (Rep × Settings))) : Prop where
  within : p.Within (Concerns e c)
  /-- Where a callback is installed, no buffer is freed any more. -/
  stays : ∀ c, .use (.alpnWire c) ∈ p.entries → ∀ c', .release (.alpnWire c') ∉ p.entries
  rep : ∀ r, p.result = .ok r → WiresRep e c (.use (.alpnWire e) ∈ p.entries) r.1

theorem wires_connect (host : List Byte) (port : BitVec 16) (cfg : ClientConfig) (env : Env) :
    Wires e e (connect accepts e host port cfg env) := by
  have hno : ∀ c, .use (.alpnWire c) ∉ (connect accepts e host port cfg env).entries :=
    fun c => use_not_mem_connect host port cfg env
  refine ⟨within_connect host port cfg env, fun c h => absurd h (hno c), ?_⟩
  intro r h
  obtain ⟨n, lines, hrep⟩ := rep_connect h
  rw [hrep]
  exact ⟨nofun, fun x hx => by cases hx; rfl, rfl, nofun⟩

theorem wires_accept (lr : Rep) (ctx : Settings) (env : Env) :
    Wires e lr.id (accept e lr ctx env) := by
  refine ⟨within_accept lr ctx env, fun c h => absurd h (use_not_mem_accept lr ctx env), ?_⟩
  intro r h
  obtain ⟨lines, hrep⟩ := rep_accept h
  rw [hrep]
  exact ⟨nofun, fun x hx => by cases hx; rfl, rfl, nofun⟩

theorem wires_memBioClientNew (cfg : ClientConfig) (env : Env) :
    Wires e e (memBioClientNew accepts e cfg env) := by
  refine ⟨within_memBioClientNew cfg env,
    fun c h => absurd h (use_not_mem_memBioClientNew cfg env), ?_⟩
  intro r h
  rw [rep_memBioClientNew h]
  exact ⟨nofun, fun x hx => by cases hx; rfl, rfl, nofun⟩

theorem release_not_mem_serverAlpn (alpn : Option AlpnOffer) :
    .release (.alpnWire c) ∉ (serverAlpn e alpn).entries := by
  unfold serverAlpn alpnList
  simp only [Acct.entries_ite, Acct.entries_bind, Acct.result_ite]
  split_ifs <;> simp [mem_given]

theorem use_not_mem_serverAlpn (alpn : Option AlpnOffer) :
    .use (.alpnWire c) ∉ (serverAlpn e alpn).entries := by
  have hlist : .use (.alpnWire c) ∉ (alpnList e alpn).entries := not_mem_alpnList (by simp) _
  simp [serverAlpn, hlist]

theorem wires_bind (host : List Byte) (port : BitVec 16) (cfg : ServerConfig) (env : Env) :
    Wires e e (bind accepts e host port cfg env) := by
  refine ⟨within_bind host port cfg env, fun c huse c' => ?_, ?_⟩
  · -- no exit frees the buffer
    clear huse
    have htcp : .release (.alpnWire c') ∉
        (connectTcp e (env.attempts (cString host) port)).entries :=
      not_mem_connectTcp (by simp) (by simp) _
    unfold bind bindTcp
    simp only [Acct.entries_ite, Acct.entries_bind]
    cases (connectTcp e (env.attempts (cString host) port)).result <;> split_ifs <;>
      simp [htcp, release_not_mem_serverAlpn]
  · intro r h
    obtain ⟨n, hrep⟩ := rep_bind h
    rw [hrep]
    refine ⟨fun hwire => ?_, nofun, rfl, fun _ => ⟨rfl, rfl⟩⟩
    have hwire : (serverAlpn e cfg.alpn).result = true := hwire
    unfold bind at h ⊢
    simp only [Acct.result_ite, Acct.entries_ite, Acct.result_bind, Acct.entries_bind] at h ⊢
    cases hfd : (bindTcp e (env.attempts (cString host) port)).result with
    | none =>
      rw [hfd] at h
      split_ifs at h
    | some m =>
      split_ifs at h ⊢
      simp [hwire]

theorem wires_memBioServerNew (cfg : ServerConfig) (env : Env) :
    Wires e e (memBioServerNew accepts e cfg env) := by
  refine ⟨within_memBioServerNew cfg env, fun c huse c' => ?_, ?_⟩
  · unfold memBioServerNew at huse ⊢
    simp only [Acct.entries_ite, Acct.entries_bind] at huse ⊢
    split_ifs at huse ⊢
    -- the exits free the buffer, but have not installed the callback
    · simp at huse
    · simp at huse
    · simp [use_not_mem_serverAlpn] at huse
    · simp [use_not_mem_serverAlpn] at huse
    · simp [release_not_mem_serverAlpn, mem_given]
  · intro r h
    rw [rep_memBioServerNew h]
    refine ⟨fun hwire => ?_, fun x hx => by cases hx; rfl, rfl, nofun⟩
    have hwire : (serverAlpn e cfg.alpn).result = true := hwire
    unfold memBioServerNew at h ⊢
    simp only [Acct.result_ite, Acct.entries_ite, Acct.result_bind, Acct.entries_bind] at h ⊢
    split_ifs at h ⊢
    simp [hwire]

end

/-! ## Callbacks over a run -/

/-- An `SSL_CTX` is alive: its endpoint or some `SSL` has a reference on it. -/
def CtxAlive (m : Multiset Resource) (c : ℕ) : Prop := .ctx c ∈ m ∨ ∃ e, .ssl e c ∈ m

/-- After some entries, the argument of every callback of a context that is alive is a buffer that
has not been freed. -/
def ArgValidAfter (l : List (Entry Resource)) : Prop :=
  ∀ m, settle 0 l = some m → ∀ c, .use (.alpnWire c) ∈ l → CtxAlive m c → .alpnWire c ∈ m

/-- The same at every moment. -/
def ArgValid (l : List (Entry Resource)) : Prop := ∀ l', l' <+: l → ArgValidAfter l'

/-- A listener with a callback ends only when no connection has its context. -/
def State.EndsAlone (s : State) : Event → Prop
  | .close e | .drop e => ∀ x, s.find e = some x → x.rep.kind = .serverListener →
    x.rep.alpnWire = true → ∀ y ∈ s.live, ∀ ssl ∈ y.rep.ssl, ssl.ctx ≠ e
  | _ => True

/-- Which contexts the live endpoints use, and which callbacks were installed. -/
structure Wired (l : List (Entry Resource)) (s : State) : Prop where
  distinct : s.Distinct
  settled : settle 0 l = some s.owned
  used : ∀ c, .use (.alpnWire c) ∈ l → c ∈ s.used
  installed : ∀ x ∈ s.live, x.rep.alpnWire = true → .use (.alpnWire x.rep.id) ∈ l
  contexts : ∀ y ∈ s.live, ∀ ssl ∈ y.rep.ssl, ssl.ctx = y.rep.id ∨
    ssl.ctx ∈ s.used ∧ ∀ x ∈ s.live, x.rep.id = ssl.ctx → x.rep.kind = .serverListener
  listener : ∀ x ∈ s.live, x.rep.kind = .serverListener → x.rep.ctx = true ∧ x.rep.ssl = none

theorem wired_init : Wired [] {} where
  distinct := distinct_init
  settled := rfl
  used := by simp
  installed := by simp
  contexts := by simp
  listener := by simp

namespace Wired

variable {l : List (Entry Resource)} {s : State} {e c : ℕ}

theorem eq_of_id (h : Wired l s) {x y : Live} (hx : x ∈ s.live) (hy : y ∈ s.live)
    (hid : x.rep.id = y.rep.id) : x = y :=
  List.inj_on_of_nodup_map h.distinct.nodup hx hy hid

/-- A step that makes no endpoint and installs no callback. -/
theorem of_live (h : Wired l s) {s' : State} {k : List (Entry Resource)} (hs' : s'.Distinct)
    (hk : settle s.owned k = some s'.owned) (huse : ∀ c, .use (.alpnWire c) ∉ k)
    (hused : s'.used = s.used)
    (hlive : ∀ x' ∈ s'.live, ∃ x ∈ s.live, ∃ lines, x'.rep = { x.rep with lines }) :
    Wired (l ++ k) s' := by
  refine ⟨hs', ?_, fun c hc => ?_, fun x' hx' hwire => ?_, fun y' hy' ssl hssl => ?_,
    fun x' hx' hkind => ?_⟩
  · rw [settle_append, h.settled, Option.bind_some, hk]
  · rw [hused]
    rcases List.mem_append.mp hc with hc | hc
    · exact h.used c hc
    · exact absurd hc (huse c)
  · obtain ⟨x, hx, lines, hrep⟩ := hlive x' hx'
    rw [hrep] at hwire ⊢
    exact List.mem_append_left _ (h.installed x hx hwire)
  · obtain ⟨y, hy, lines, hrep⟩ := hlive y' hy'
    rw [hrep] at hssl ⊢
    rw [hused]
    refine (h.contexts y hy ssl hssl).imp id fun ⟨hctx, hkind⟩ => ⟨hctx, fun x' hx' hid => ?_⟩
    obtain ⟨x, hx, lines', hrep'⟩ := hlive x' hx'
    rw [hrep'] at hid ⊢
    exact hkind x hx hid
  · obtain ⟨x, hx, lines, hrep⟩ := hlive x' hx'
    rw [hrep] at hkind ⊢
    exact h.listener x hx hkind

/-- A constructor for a new number. -/
theorem construct (h : Wired l s) {hs : List Handle}
    {p : Acct Resource (Except TlsError (Rep × Settings))}
    (hp : ∀ H : Multiset Resource, (∀ h ∈ hs, .handle h ∈ H) → Triple H p (outcome H))
    (hw : Wires e c p)
    (hc : c = e ∨ ∃ x ∈ s.live, x.rep.id = c ∧ x.rep.kind = .serverListener) :
    Wired (l ++ (s.construct e hs p).1.entries) (s.construct e hs p).2 := by
  have hsettle := State.settle_construct (s := s) (e := e) hp
  have hdistinct : (s.construct e hs p).2.Distinct :=
    h.distinct.construct fun r hr => (hw.rep r hr).id
  have hsettled : settle 0 (l ++ (s.construct e hs p).1.entries) =
      some (s.construct e hs p).2.owned := by
    rw [settle_append, h.settled, Option.bind_some, hsettle]
  unfold State.construct at hdistinct hsettled ⊢
  split_ifs at hdistinct hsettled ⊢ with he
  · simpa using h
  -- a callback is only installed for the new number
  have hused : ∀ c', .use (.alpnWire c') ∈ l ++ ((hs.map Resource.handle).map .acquire ++ p.entries) →
      c' ∈ e :: s.used := by
    intro c' hc'
    rcases List.mem_append.mp hc' with hc' | hc'
    · exact List.mem_cons_of_mem e (h.used c' hc')
    · rcases List.mem_append.mp hc' with hc' | hc'
      · simp at hc'
      · have hown : some c' = some e := hw.within _ hc'
        exact List.mem_cons.mpr (Or.inl (Option.some.inj hown))
  have hcontexts : ∀ y ∈ s.live, ∀ ssl ∈ y.rep.ssl, ssl.ctx = y.rep.id ∨
      ssl.ctx ∈ e :: s.used ∧ ssl.ctx ≠ e ∧
        ∀ x ∈ s.live, x.rep.id = ssl.ctx → x.rep.kind = .serverListener := by
    intro y hy ssl hssl
    refine (h.contexts y hy ssl hssl).imp id fun ⟨hctx, hkind⟩ => ?_
    exact ⟨List.mem_cons_of_mem e hctx, fun heq => he (heq ▸ hctx), hkind⟩
  rcases hresult : p.result with err | ⟨rep, settings⟩
  · rw [hresult] at hdistinct hsettled
    refine ⟨hdistinct, hsettled, hused, fun x hx hwire => ?_, fun y hy ssl hssl => ?_,
      h.listener⟩
    · exact List.mem_append_left _ (h.installed x hx hwire)
    · exact (hcontexts y hy ssl hssl).imp id fun ⟨hctx, _, hkind⟩ => ⟨hctx, hkind⟩
  · rw [hresult] at hdistinct hsettled
    have hrep := hw.rep _ hresult
    refine ⟨hdistinct, hsettled, hused, ?_, ?_, ?_⟩
    · rintro x hx hwire
      rcases List.mem_cons.mp hx with rfl | hx
      · rw [hrep.id]
        exact List.mem_append_right _ (List.mem_append_right _ (hrep.installed hwire))
      · exact List.mem_append_left _ (h.installed x hx hwire)
    · rintro y hy ssl hssl
      rcases List.mem_cons.mp hy with rfl | hy
      · have hctx : ssl.ctx = c := hrep.ssl ssl hssl
        rcases hc with rfl | ⟨x, hx, rfl, hkind⟩
        · exact Or.inl (hctx.trans hrep.id.symm)
        · right
          rw [hctx]
          refine ⟨List.mem_cons_of_mem e (h.distinct.used x hx), fun x' hx' hid => ?_⟩
          rcases List.mem_cons.mp hx' with rfl | hx'
          · exact absurd (h.distinct.used x hx) (hid ▸ hrep.id ▸ he)
          · rwa [h.eq_of_id hx' hx hid]
      · refine (hcontexts y hy ssl hssl).imp id fun ⟨hctx, hne, hkind⟩ => ⟨hctx, ?_⟩
        intro x hx hid
        rcases List.mem_cons.mp hx with rfl | hx
        · exact absurd (hid.symm.trans hrep.id) hne
        · exact hkind x hx hid
    · rintro x hx hkind
      rcases List.mem_cons.mp hx with rfl | hx
      · exact hrep.listener hkind
      · exact h.listener x hx hkind

theorem finish (h : Wired l s) {p : Rep → Acct Resource Unit}
    (hp : ∀ r, (p r).entries = r.owned.map .release) :
    Wired (l ++ (s.finish e p).1.entries) (s.finish e p).2 := by
  have htriple : ∀ (r : Rep) (m : Multiset Resource),
      Triple ((r.owned : Multiset Resource) + m) (p r) fun _ => m := by
    intro r m
    rw [Triple, hp]
    exact Triple.releaseAll
  have hsettle := State.settle_finish (s := s) (e := e) htriple
  unfold State.finish at hsettle ⊢
  split at hsettle
  next => simpa using h
  next x hx =>
    refine h.of_live (h.distinct.without e) hsettle ?_ rfl fun y hy => ?_
    · simp [hp]
    · exact ⟨y, List.mem_of_mem_eraseP hy, y.rep.lines, rfl⟩

theorem setLines (h : Wired l s) (lines : Bool) (hdistinct : (s.setLines e lines).2.Distinct) :
    Wired (l ++ (s.setLines e lines).1.entries) (s.setLines e lines).2 := by
  have hsettle := State.settle_setLines (s := s) (e := e) lines
  unfold State.setLines at hsettle hdistinct ⊢
  split at hsettle
  next => simpa using h
  next x hx =>
    simp only [hx] at hdistinct ⊢
    split_ifs at hsettle hdistinct ⊢
    · simpa using h
    · simpa using h
    all_goals
      refine h.of_live hdistinct hsettle (by simp) rfl fun y hy => ?_
      rcases List.mem_cons.mp hy with rfl | hy
      · exact ⟨x, List.mem_of_find?_eq_some hx, lines, rfl⟩
      · exact ⟨y, List.mem_of_mem_eraseP hy, y.rep.lines, rfl⟩

end Wired

variable {accepts : Settings → Setting Handle Handle Handle → Bool}

/-- The `SSL` of a new endpoint uses its own context or that of a live listener. -/
theorem Constructs.wires {s : State} {e : ℕ} {hs : List Handle}
    {p : Acct Resource (Except TlsError (Rep × Settings))} (h : Constructs accepts s e hs p) :
    ∃ c, Wires e c p ∧ (c = e ∨ ∃ x ∈ s.live, x.rep.id = c ∧ x.rep.kind = .serverListener) := by
  cases h with
  | connect host port cfg env => exact ⟨e, wires_connect host port cfg env, Or.inl rfl⟩
  | bind host port cfg env => exact ⟨e, wires_bind host port cfg env, Or.inl rfl⟩
  | accept x env hx hkind =>
    exact ⟨x.rep.id, wires_accept x.rep x.settings env, Or.inr ⟨x, hx, rfl, hkind⟩⟩
  | memBioClientNew cfg env => exact ⟨e, wires_memBioClientNew cfg env, Or.inl rfl⟩
  | memBioServerNew cfg env => exact ⟨e, wires_memBioServerNew cfg env, Or.inl rfl⟩

theorem wired_step {l : List (Entry Resource)} {s : State} (h : Wired l s) (a : Event) :
    Wired (l ++ (step accepts s a).1.entries) (step accepts s a).2 := by
  have hdistinct : (step accepts s a).2.Distinct := distinct_step h.distinct a
  obtain ⟨hnil, hsame, -⟩ | ⟨e, hs, p, hstep, -, hp⟩ | ⟨e, lines, hstep, -⟩ |
    ⟨e, p, hstep, -, hp⟩ := step_cases accepts s a
  · rw [hnil, hsame, List.append_nil]
    exact h
  · obtain ⟨c, hw, hc⟩ := hp.wires
    rw [hstep]
    exact h.construct (fun H hH => hp.triple hH) hw hc
  · rw [hstep] at hdistinct ⊢
    exact h.setLines lines hdistinct
  · rw [hstep]
    exact h.finish hp

/-! ## The buffers of callbacks -/

section

variable {l : List (Entry Resource)} {s : State}

theorem argValid_append_iff {k : List (Entry Resource)} :
    ArgValid (l ++ k) ↔ ArgValid l ∧ ∀ k', k' <+: k → ArgValidAfter (l ++ k') := by
  constructor
  · intro h
    exact ⟨fun l' hl' => h l' (hl'.trans (List.prefix_append l k)),
      fun k' hk' => h _ ((List.prefix_append_right_inj l).mpr hk')⟩
  · rintro ⟨hl, hk⟩ l' ⟨t, ht⟩
    rcases List.append_eq_append_iff.mp ht with ⟨a, rfl, -⟩ | ⟨a, rfl, rfl⟩
    · exact hl l' (List.prefix_append l' a)
    · exact hk a (List.prefix_append a t)

/-- What belongs to a live endpoint. -/
theorem mem_owned_of_live {x : Live} (hx : x ∈ s.live) {r : Resource} (hr : r ∈ x.rep.owned) :
    r ∈ s.owned :=
  Multiset.mem_add.mpr (Or.inl (List.mem_flatMap.mpr ⟨x, hx, hr⟩))

theorem ctx_mem_owned {r : Rep} (h : r.ctx = true) : .ctx r.id ∈ r.owned := by
  simp [Rep.owned, Rep.fields, h]

theorem ssl_mem_owned {r : Rep} {ssl : Ssl} (h : ssl ∈ r.ssl) : .ssl r.id ssl.ctx ∈ r.owned := by
  rw [Option.mem_def] at h
  simp [Rep.owned, Rep.fields, Ssl.owned, h]

/-- A constructor is given handles, and does the rest itself. -/
theorem mem_entries_construct {e : ℕ} {hs : List Handle}
    {p : Acct Resource (Except TlsError (Rep × Settings))} {x : Entry Resource}
    (hx : x ∈ (s.construct e hs p).1.entries) :
    (∃ h ∈ hs, x = .acquire (.handle h)) ∨ x ∈ p.entries := by
  unfold State.construct at hx
  split_ifs at hx with he
  · cases hx
  · have hx : x ∈ (hs.map Resource.handle).map Entry.acquire ++ p.entries := by
      cases hresult : p.result <;> rwa [hresult] at hx
    refine (List.mem_append.mp hx).imp (fun hx => ?_) id
    obtain ⟨_, hr, rfl⟩ := List.mem_map.mp hx
    obtain ⟨h, hh, rfl⟩ := List.mem_map.mp hr
    exact ⟨h, hh, rfl⟩

theorem Wires.concerns {e c : ℕ} {hs : List Handle}
    {p : Acct Resource (Except TlsError (Rep × Settings))} (hw : Wires e c p) {x : Entry Resource}
    (hx : x ∈ (s.construct e hs p).1.entries) : Concerns e c x.resource := by
  rcases mem_entries_construct hx with ⟨h, -, rfl⟩ | hx
  · trivial
  · exact hw.within x hx

/-- A constructor installs a callback for its own buffer, and leaves the other buffers and contexts
alone. -/
theorem Wired.argValidAfter_construct {e c : ℕ} (h : Wired l s) (hl : ArgValidAfter l)
    {hs : List Handle} {p : Acct Resource (Except TlsError (Rep × Settings))} (hw : Wires e c p)
    (hc : c = e ∨ ∃ x ∈ s.live, x.rep.id = c ∧ x.rep.kind = .serverListener)
    {k : List (Entry Resource)} (hk : k <+: (s.construct e hs p).1.entries) :
    ArgValidAfter (l ++ k) := by
  by_cases he : e ∈ s.used
  · rw [State.construct, if_pos he, List.prefix_nil] at hk
    rwa [hk, List.append_nil]
  intro m hm c' huse halive
  rw [settle_append, h.settled, Option.bind_some] at hm
  -- all that the entries are not about stays
  have hother : ∀ r, ¬Concerns e c r → (r ∈ m ↔ r ∈ s.owned) := fun r hr =>
    mem_settle_iff hm fun x hx heq => hr (heq ▸ hw.concerns (hk.subset hx))
  rcases List.mem_append.mp huse with huse | huse
  · -- a callback of another endpoint: its buffer stays, and its context was alive before
    have hne : c' ≠ e := fun heq => he (heq ▸ h.used c' huse)
    have hown : some c' ≠ some e := fun heq => hne (Option.some.inj heq)
    refine (hother (.alpnWire c') hown).mpr (hl _ h.settled c' huse ?_)
    rcases halive with halive | ⟨e', halive⟩
    · exact Or.inl ((hother (.ctx c') hown).mp halive)
    · by_cases hssl : e' = e ∧ c' = c
      · -- the new `SSL` has taken a reference on the context of a listener
        obtain ⟨-, rfl⟩ := hssl
        rcases hc with heq | ⟨x, hx, rfl, hkind⟩
        · exact absurd heq hne
        · exact Or.inl (mem_owned_of_live hx (ctx_mem_owned (h.listener x hx hkind).1))
      · exact Or.inr ⟨e', (hother (.ssl e' c') hssl).mp halive⟩
  · -- the callback of the new endpoint
    obtain rfl : c' = e := Option.some.inj (hw.concerns (hk.subset huse))
    have hp : .use (.alpnWire c') ∈ p.entries := by
      rcases mem_entries_construct (hk.subset huse) with ⟨h, -, heq⟩ | huse
      · cases heq
      · exact huse
    refine mem_of_use hm huse fun hrelease => ?_
    rcases mem_entries_construct (hk.subset hrelease) with ⟨h, -, heq⟩ | hrelease
    · cases heq
    · exact hw.stays c' hp c' hrelease

theorem exists_ssl_of_mem_owned {r : Rep} {e c : ℕ} (h : .ssl e c ∈ r.owned) :
    ∃ ssl ∈ r.ssl, ssl.ctx = c := by
  simp only [Rep.owned, Rep.fields, Ssl.owned, List.mem_append, List.mem_cons, List.mem_flatMap,
    List.mem_map, mem_given] at h
  rcases h with (((((⟨ssl, hssl, (heq | ⟨-, heq⟩) | ⟨-, heq⟩⟩ | ⟨n, -, heq⟩) | ⟨-, heq⟩) |
    ⟨-, heq⟩) | ⟨-, heq⟩) | heq | heq) <;> cases heq
  exact ⟨ssl, Option.mem_toList.mp hssl, rfl⟩

/-- A context or an `SSL` is released before the buffer. -/
theorem alpnWire_mem_of_suffix {r : Rep} {kept : List Resource} (h : kept <:+ r.owned)
    (hwire : r.alpnWire = true) {x : Resource} (hx : x ∈ kept)
    (hbefore : (∃ c, x = .ctx c) ∨ ∃ e c, x = .ssl e c) : .alpnWire r.id ∈ kept := by
  obtain ⟨released, howned⟩ := h
  rw [Rep.owned, Rep.fields, hwire, given_true, List.append_assoc, List.append_assoc] at howned
  rcases List.append_eq_append_iff.mp howned with ⟨a, -, rfl⟩ | ⟨a, -, ha⟩
  · exact List.mem_append_right _ (by simp)
  · -- what is kept is the buffer at most, the lines and the record
    have hx : x ∈ [Resource.alpnWire r.id] ++ (given r.lines (.lines r.id) ++ [.rep r.id]) := by
      rw [ha]
      exact List.mem_append_right a hx
    simp only [List.mem_append, List.mem_singleton, mem_given] at hx
    rcases hbefore with ⟨c, rfl⟩ | ⟨e, c, rfl⟩ <;> simp at hx

/-- Where the endpoint has gone, nothing else holds its context, unless it is a listener. -/
theorem Wired.not_ctxAlive_without {e : ℕ} (h : Wired l s) {x : Live} (hfind : s.find e = some x)
    (hwire : x.rep.alpnWire = true) (halone : s.EndsAlone (.close e)) :
    ¬CtxAlive ({ s with live := s.without e } : State).owned e := by
  have hx := List.mem_of_find?_eq_some hfind
  rintro (halive | ⟨e', halive⟩)
  · obtain ⟨y, hy, hid⟩ := State.mem_owned rfl halive
    exact h.distinct.gone_without e y hy hid
  · rcases Multiset.mem_add.mp halive with halive | halive
    · obtain ⟨y, hy, hmem⟩ := List.mem_flatMap.mp halive
      obtain ⟨ssl, hssl, hctx⟩ := exists_ssl_of_mem_owned hmem
      have hlive : y ∈ s.live := List.mem_of_mem_eraseP hy
      rcases h.contexts y hlive ssl hssl with heq | ⟨-, hkind⟩
      · exact h.distinct.gone_without e y hy (heq.symm.trans hctx)
      · have hlistener := hkind x hx ((State.find_id hfind).trans hctx.symm)
        exact halone x hfind hlistener hwire y hlive ssl hssl hctx
    · obtain ⟨_, -, heq⟩ := List.mem_map.mp halive
      cases heq

theorem ctxAlive_add {m n : Multiset Resource} {c : ℕ} :
    CtxAlive (m + n) c ↔ CtxAlive m c ∨ CtxAlive n c := by
  simp only [CtxAlive, Multiset.mem_add, exists_or]
  tauto

/-- A buffer that is owned belongs to the endpoint of its number. -/
theorem Wired.alpnWire_of_mem_owned {e : ℕ} (h : Wired l s) {x : Live} (hfind : s.find e = some x)
    (hbuffer : .alpnWire e ∈ s.owned) : x.rep.alpnWire = true := by
  rw [State.owned_of_find hfind] at hbuffer
  rcases Multiset.mem_add.mp hbuffer with hmem | hmem
  · by_contra hnone
    simp [Rep.owned, Rep.fields, Ssl.owned, mem_given, hnone] at hmem
  · obtain ⟨y, hy, hyid⟩ := State.mem_owned rfl hmem
    exact absurd hyid (h.distinct.gone_without e y hy)

/-- An end releases what belongs to the endpoint, its context before its buffer. -/
theorem Wired.argValidAfter_finish {e : ℕ} (h : Wired l s) (hl : ArgValidAfter l)
    {p : Rep → Acct Resource Unit} (hp : ∀ r, (p r).entries = r.owned.map .release)
    (halone : s.EndsAlone (.close e)) {k : List (Entry Resource)}
    (hk : k <+: (s.finish e p).1.entries) : ArgValidAfter (l ++ k) := by
  rcases hfind : s.find e with _ | x
  · rw [State.finish, hfind, List.prefix_nil] at hk
    rwa [hk, List.append_nil]
  rw [State.finish, hfind] at hk
  simp only [hp] at hk
  obtain ⟨released, ⟨kept, howned⟩, rfl⟩ := List.prefix_map_iff.mp hk
  set rest : State := { s with live := s.without e } with hrest
  intro m hm c huse halive
  have huse : .use (.alpnWire c) ∈ l := by simpa using huse
  have hs : s.owned = ↑released + (↑kept + rest.owned) := by
    rw [State.owned_of_find hfind, ← howned, coe_append, add_assoc]
  -- what is still held: the rest of the endpoint, and all others
  have hm : m = ↑kept + rest.owned := by
    rw [settle_append, h.settled, Option.bind_some, hs] at hm
    exact (Option.some.inj (Triple.releaseAll.symm.trans hm)).symm
  have hsub : ∀ r ∈ m, r ∈ s.owned := by
    intro r hr
    rw [hs, ← hm]
    exact Multiset.mem_add.mpr (Or.inr hr)
  have hbuffer : .alpnWire c ∈ s.owned :=
    hl _ h.settled c huse (halive.imp (hsub _) fun hssl => hssl.imp fun e' => hsub (.ssl e' c))
  have hid : x.rep.id = e := State.find_id hfind
  by_cases hc : c = e
  · subst hc
    have hwire := h.alpnWire_of_mem_owned hfind hbuffer
    have hkept : CtxAlive ↑kept c := by
      rw [hm, ctxAlive_add] at halive
      exact halive.resolve_right (h.not_ctxAlive_without hfind hwire halone)
    have hsuffix : kept <:+ x.rep.owned := ⟨released, howned⟩
    rw [hm, ← hid]
    refine Multiset.mem_add.mpr (Or.inl ?_)
    rcases hkept with hmem | ⟨e', hmem⟩
    · exact alpnWire_mem_of_suffix hsuffix hwire hmem (Or.inl ⟨c, rfl⟩)
    · exact alpnWire_mem_of_suffix hsuffix hwire hmem (Or.inr ⟨e', c, rfl⟩)
  · -- the buffer of another endpoint is not among what is released
    rw [State.owned_of_find hfind] at hbuffer
    rcases Multiset.mem_add.mp hbuffer with hmem | hmem
    · have howner : some c = some x.rep.id := owner_of_mem_owned hmem
      exact absurd ((Option.some.inj howner).trans hid) hc
    · rw [hm]
      exact Multiset.mem_add.mpr (Or.inr hmem)

/-- The lines of a log are no matter of callbacks. -/
theorem Wired.argValidAfter_setLines {e : ℕ} {lines : Bool} (h : Wired l s) (hl : ArgValidAfter l)
    {k : List (Entry Resource)} (hk : k <+: (s.setLines e lines).1.entries) :
    ArgValidAfter (l ++ k) := by
  have hlines : ∀ x ∈ k, ∃ e', x.resource = .lines e' := by
    intro x hx
    have hx := hk.subset hx
    unfold State.setLines at hx
    split at hx
    next => cases hx
    next y hy =>
      split_ifs at hx with hssl hsame hset
      · cases hx
      · cases hx
      · rw [List.mem_singleton.mp hx]
        exact ⟨_, rfl⟩
      · rw [List.mem_singleton.mp hx]
        exact ⟨_, rfl⟩
  intro m hm c huse halive
  rw [settle_append, h.settled, Option.bind_some] at hm
  have hother : ∀ r : Resource, (∀ e', r ≠ .lines e') → (r ∈ m ↔ r ∈ s.owned) := by
    intro r hr
    refine mem_settle_iff hm fun x hx heq => ?_
    obtain ⟨e', he'⟩ := hlines x hx
    exact hr e' (heq.symm.trans he')
  refine (hother _ (by simp)).mpr (hl _ h.settled c ?_ ?_)
  · rcases List.mem_append.mp huse with huse | huse
    · exact huse
    · obtain ⟨e', he'⟩ := hlines _ huse
      cases he'
  · rcases halive with halive | ⟨e', halive⟩
    · exact Or.inl ((hother _ (by simp)).mp halive)
    · exact Or.inr ⟨e', (hother _ (by simp)).mp halive⟩

/-- If a listener with a callback ends while a connection has its context, the argument of the
callback is freed. -/
theorem Wired.endsAlone_of_finish {e : ℕ} (h : Wired l s) {p : Rep → Acct Resource Unit}
    (hp : ∀ r, (p r).entries = r.owned.map .release)
    (hvalid : ArgValidAfter (l ++ (s.finish e p).1.entries)) : s.EndsAlone (.close e) := by
  intro x hfind hkind hwire y hy ssl hssl hctx
  have hx := List.mem_of_find?_eq_some hfind
  have hid : x.rep.id = e := State.find_id hfind
  have hsettled := (h.finish (e := e) hp).settled
  rw [State.finish, hfind] at hvalid hsettled
  have hmem : y ∈ s.without e := by
    refine (List.mem_eraseP_of_neg ?_).mpr hy
    simp only [decide_eq_true_eq]
    rintro hyid
    obtain rfl := h.eq_of_id hy hx (hyid.trans hid.symm)
    rw [(h.listener y hy hkind).2] at hssl
    cases hssl
  have halive : CtxAlive ({ s with live := s.without e } : State).owned e := by
    refine Or.inr ⟨y.rep.id, ?_⟩
    have hown := ssl_mem_owned hssl
    rw [hctx] at hown
    exact mem_owned_of_live (s := { s with live := s.without e }) hmem hown
  have huse : .use (.alpnWire e) ∈ l := hid ▸ h.installed x hx hwire
  have hbuffer := hvalid _ hsettled e (List.mem_append_left _ huse) halive
  obtain ⟨z, hz, hzid⟩ := State.mem_owned rfl hbuffer
  exact h.distinct.gone_without e z hz hzid

/-- A step keeps the arguments of callbacks valid exactly if it ends no listener too early. -/
theorem argValid_step_iff (h : Wired l s) (hl : ArgValid l) (a : Event) :
    ArgValid (l ++ (step accepts s a).1.entries) ↔ s.EndsAlone a := by
  have hafter : ArgValidAfter l := hl l List.prefix_rfl
  constructor
  · intro hvalid
    have hvalid := hvalid _ List.prefix_rfl
    cases a with
    | close e => exact h.endsAlone_of_finish entries_close hvalid
    | drop e => exact h.endsAlone_of_finish entries_destructor hvalid
    | _ => trivial
  · intro halone
    refine argValid_append_iff.mpr ⟨hl, fun k hk => ?_⟩
    obtain ⟨hnil, -, -⟩ | ⟨e, hs, p, hstep, -, hp⟩ | ⟨e, lines, hstep, -⟩ |
      ⟨e, p, hstep, ha, hp⟩ := step_cases accepts s a
    · rw [hnil, List.prefix_nil] at hk
      rwa [hk, List.append_nil]
    · obtain ⟨c, hw, hc⟩ := hp.wires
      rw [hstep] at hk
      exact h.argValidAfter_construct hafter hw hc hk
    · rw [hstep] at hk
      exact h.argValidAfter_setLines hafter hk
    · rw [hstep] at hk
      rcases ha with rfl | rfl
      · exact h.argValidAfter_finish hafter hp halone hk
      · exact h.argValidAfter_finish hafter hp halone hk

end

/-- In any order of endpoints: the argument of every callback whose context is alive is a buffer
that has not been freed, at every moment, exactly if no listener with a callback ends while a
connection that it has accepted is there. -/
theorem argValid_iff (events : List Event) :
    ArgValid (log Answer.entries (run (step accepts) {} events).1) ↔
      Along (step accepts) State.EndsAlone {} events := by
  have hnil : ArgValid [] := by
    intro l' hl' m hm c huse
    rw [List.prefix_nil.mp hl'] at huse
    cases huse
  have hG : ∀ l l', ArgValid (l ++ l') → ArgValid l :=
    fun l l' h => (argValid_append_iff.mp h).1
  exact log_iff_along (J := Wired) hG (fun _ _ a h => wired_step h a)
    (fun _ _ a h hl => argValid_step_iff h hl a) wired_init hnil events

/-- A listener with ALPN. -/
def listenerConfig : ServerConfig where
  protocols := ⟨.tls12, .tls13⟩
  verify := .none
  certChain := [⟨0, 0⟩]
  key := ⟨1, 1⟩
  alpn := some ⟨[[104, 50]]⟩

/-- A listener that is closed after it has accepted a connection leaves its context with a callback
whose argument is freed. -/
theorem argValid_listenerClosed : ¬∀ events : List Event,
    ArgValid (log Answer.entries (run (step fun _ _ => true) {} events).1) := by
  intro h
  have hvalid := h [.bind 0 [] 0 listenerConfig goodEnv, .accept 1 0 goodEnv, .close 0] _
    List.prefix_rfl
    {.ssl 1 0, .fd 1 0, .rep 1, .handle ⟨0, 0⟩, .handle ⟨1, 1⟩} (by decide) 0 (by decide)
    (Or.inr ⟨1, by decide⟩)
  revert hvalid
  decide

end OpenSSLWasm.Tls.Lifetime
