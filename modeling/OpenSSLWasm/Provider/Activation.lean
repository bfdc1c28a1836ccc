import OpenSSLWasm.Lib.Transcript

/-!
# Activations of the providers

Keys and certificates are loaded from URIs with two providers of the default library context: the
default one, and the bridge to the provider that is composed in. OpenSSL counts how often a provider
is activated. Three functions of `src/pkey.c` and `src/x509.c` load and unload these providers, and
all other operations rely on the default one.

## Main definitions

* `Providers`: the activations, and the keys that live in the bridge;
* `parseUri`, `fromUri` and `fromWitBridgeUri`: the calls with a URI, for whatever OpenSSL answers;
* `Available` and `BridgeServed`: the default provider can be used, and the keys in the bridge can;
* `Undisturbed`: both, all along a run, and ordinary operations do not notice the calls with URIs.

## Main results

* `undisturbed_iff`: a run is undisturbed exactly if every call of it is `Safe`.
-/

namespace OpenSSLWasm.Provider

/-! ## Providers -/

/-- The providers of the default library context. -/
structure Providers where
  /-- Activations of the default provider. -/
  default : ℕ
  /-- Activations of `wit-bridge`. -/
  witBridge : ℕ
  /-- The default provider is still loaded automatically. -/
  autoload : Bool
  /-- Live handles of keys in the bridge. -/
  bridgeKeys : ℕ
  deriving DecidableEq, Repr

namespace Providers

/-- Before the first call. -/
def init : Providers := ⟨0, 0, true, 0⟩

variable (s : Providers)

/-- `OSSL_PROVIDER_load(NULL, "default")`, if it succeeds. -/
def loadDefault (ok : Bool) : Bool × Providers :=
  if ok then (true, { s with default := s.default + 1, autoload := false }) else (false, s)

/-- `OSSL_PROVIDER_load(NULL, "wit-bridge")`, if it succeeds. -/
def loadWitBridge (ok : Bool) : Bool × Providers :=
  if ok then (true, { s with witBridge := s.witBridge + 1, autoload := false }) else (false, s)

/-- `OSSL_PROVIDER_unload` of the providers that were loaded. -/
def unload (prov def_ : Bool) : Providers :=
  { s with
    witBridge := if prov then s.witBridge - 1 else s.witBridge
    default := if def_ then s.default - 1 else s.default }

/-- An algorithm of the default provider is fetched. -/
def fetch : Providers :=
  if s.autoload then { s with default := s.default + 1, autoload := false } else s

/-- The default provider is available, at the latest once something is fetched from it. -/
def Available : Prop := s.autoload = true ∨ 0 < s.default

/-- The bridge is active while a key in it is alive. -/
def BridgeServed : Prop := 0 < s.bridgeKeys → 0 < s.witBridge

end Providers

/-! ## Calls with a URI -/

/-- Where a key lives. -/
inductive KeyHome
  | default
  | witBridge
  deriving DecidableEq, Repr

/-- What a store emits; an object that it does not hand out has no handle. -/
inductive StoreEvent
  /-- `OSSL_STORE_load` gives no object. -/
  | noInfo (error : Bool)
  | cert (got : Bool)
  | pkey (got : Option KeyHome)
  | pubkey (got : Option KeyHome)
  | other
  deriving DecidableEq, Repr

/-- What OpenSSL answers to a call with a URI. -/
structure StoreAnswers where
  loadsDefault : Bool
  loadsWitBridge : Bool
  opens : Bool
  /-- The answers of `OSSL_STORE_load`, up to the end. -/
  events : List StoreEvent
  deriving DecidableEq, Repr

/-- The certificates that the loop of `certificate.parse-uri` collects. -/
def collectCerts (n : ℕ) : List StoreEvent → ℕ
  | [] => n
  | .noInfo error :: es => if error then n else collectCerts n es
  | .cert got :: es => collectCerts (if got then n + 1 else n) es
  | _ :: es => collectCerts n es

/-- The first key that the loop of `pkey.from-uri` gets. -/
def firstKey : List StoreEvent → Option KeyHome
  | [] => none
  | .noInfo error :: es => if error then none else firstKey es
  | .pkey (some home) :: _ => some home
  | .pubkey (some home) :: _ => some home
  | _ :: es => firstKey es

/-- `certificate.parse-uri`. -/
def parseUri (o : StoreAnswers) (s : Providers) : Option ℕ × Providers :=
  let (def_, s) := s.loadDefault o.loadsDefault
  let (prov, s) := s.loadWitBridge o.loadsWitBridge
  if def_ = false ∨ prov = false then (none, s.unload prov def_)
  else if o.opens = false then (none, s.unload prov def_)
  else
    let n := collectCerts 0 o.events
    let s := s.unload prov def_
    if n = 0 then (none, s) else (some n, s)

/-- `pkey.from-uri`. -/
def fromUri (o : StoreAnswers) (s : Providers) : Option KeyHome × Providers :=
  let (def_, s) := s.loadDefault o.loadsDefault
  let (prov, s) := s.loadWitBridge o.loadsWitBridge
  if def_ = false ∨ prov = false then (none, s.unload prov def_)
  else if o.opens = false then (none, s.unload prov def_)
  else
    match firstKey o.events with
    | none => (none, s.unload prov def_)
    | some .default => (some .default, s.unload prov def_)
    -- the handle outlives the activation
    | some .witBridge =>
      (some .witBridge, { s with bridgeKeys := s.bridgeKeys + 1 }.unload prov def_)

/-- What OpenSSL answers to `pkey.from-wit-bridge-uri`. -/
structure FromdataAnswers where
  loadsDefault : Bool
  loadsWitBridge : Bool
  newCtx : Bool
  fromdataInit : Bool
  fromdata : Bool
  deriving DecidableEq, Repr

/-- `pkey.from-wit-bridge-uri`: the key is returned, and both providers stay, or neither. -/
def fromWitBridgeUri (o : FromdataAnswers) (s : Providers) : Bool × Providers :=
  match s.loadDefault o.loadsDefault with
  | (false, s) => (false, s)
  | (true, s) =>
    match s.loadWitBridge o.loadsWitBridge with
    | (false, s) => (false, s.unload false true)
    | (true, s) =>
      if o.newCtx = false then (false, s.unload true true)
      else if o.fromdataInit = false then (false, s.unload true true)
      else if o.fromdata = false then (false, s.unload true true)
      else (true, { s with bridgeKeys := s.bridgeKeys + 1 })

/-! ## Runs -/

/-- The calls of a run. -/
inductive Call
  /-- An operation that uses the default provider, and whether it succeeds if that is available. -/
  | operation (succeeds : Bool)
  | parseUri (o : StoreAnswers)
  | fromUri (o : StoreAnswers)
  | fromWitBridgeUri (o : FromdataAnswers)
  /-- The handle of a key in the bridge is dropped. -/
  | dropBridgeKey
  deriving DecidableEq, Repr

/-- Whether a call succeeds, and the providers after it. -/
def step (s : Providers) : Call → Bool × Providers
  | .operation succeeds =>
    let s := s.fetch
    (succeeds && decide (0 < s.default), s)
  | .parseUri o => ((parseUri o s).1.isSome, (parseUri o s).2)
  | .fromUri o => ((fromUri o s).1.isSome, (fromUri o s).2)
  | .fromWitBridgeUri o => fromWitBridgeUri o s
  | .dropBridgeKey => (true, { s with bridgeKeys := s.bridgeKeys - 1 })

def Call.isOperation : Call → Bool
  | operation _ => true
  | _ => false

/-- The default provider is available, and so is the bridge to the keys that live there. -/
def Providers.Intact (s : Providers) : Prop := s.Available ∧ s.BridgeServed

/-- All along a run, the providers are intact, and ordinary operations answer what they answer
without the other calls. -/
def Undisturbed (calls : List Call) : Prop :=
  (∀ before after, calls = before ++ after → (Transcript.run step .init before).2.Intact) ∧
    (Transcript.run step .init calls).1.filter (fun p => p.1.isOperation) =
      (Transcript.run step .init (calls.filter Call.isOperation)).1

/-! ## What the calls leave behind -/

namespace StoreAnswers

variable (o : StoreAnswers)

/-- A provider is loaded, and unloaded. -/
def loads : Bool := o.loadsDefault || o.loadsWitBridge

/-- The key that the store emits first. -/
def key : Option KeyHome :=
  if o.loadsDefault && o.loadsWitBridge && o.opens then firstKey o.events else none

end StoreAnswers

/-- The key is made. -/
def FromdataAnswers.completes (o : FromdataAnswers) : Bool :=
  o.loadsDefault && o.loadsWitBridge && o.newCtx && o.fromdataInit && o.fromdata

/-- Something was loaded, and unloaded: what is left of it is that nothing is loaded automatically
any more. -/
def Providers.touched (s : Providers) (loads : Bool) : Providers :=
  { s with autoload := s.autoload && !loads }

theorem parseUri_snd (o : StoreAnswers) (s : Providers) : (parseUri o s).2 = s.touched o.loads := by
  obtain ⟨ld, lb, opens, events⟩ := o
  cases ld <;> cases lb <;> cases opens <;>
    simp [parseUri, Providers.loadDefault, Providers.loadWitBridge, Providers.unload,
      Providers.touched, StoreAnswers.loads]
  split <;> rfl

/-- The key that is returned is the first that the store emits, if the call gets that far. -/
theorem fromUri_fst (o : StoreAnswers) (s : Providers) : (fromUri o s).1 = o.key := by
  obtain ⟨ld, lb, opens, events⟩ := o
  cases ld <;> cases lb <;> cases opens <;>
    simp [fromUri, Providers.loadDefault, Providers.loadWitBridge, StoreAnswers.key]
  split <;> simp [*]

theorem fromUri_snd (o : StoreAnswers) (s : Providers) :
    (fromUri o s).2 =
      { s.touched o.loads with
        bridgeKeys := if o.key = some .witBridge then s.bridgeKeys + 1 else s.bridgeKeys } := by
  obtain ⟨ld, lb, opens, events⟩ := o
  cases ld <;> cases lb <;> cases opens <;>
    simp [fromUri, Providers.loadDefault, Providers.loadWitBridge, Providers.unload,
      Providers.touched, StoreAnswers.loads, StoreAnswers.key]
  split <;> simp [*]

theorem fromWitBridgeUri_snd (o : FromdataAnswers) (s : Providers) :
    (fromWitBridgeUri o s).2 =
      if o.completes then ⟨s.default + 1, s.witBridge + 1, false, s.bridgeKeys + 1⟩
      else s.touched o.loadsDefault := by
  obtain ⟨ld, lb, ctx, init, data⟩ := o
  cases ld <;> cases lb <;> cases ctx <;> cases init <;> cases data <;>
    simp [fromWitBridgeUri, Providers.loadDefault, Providers.loadWitBridge, Providers.unload,
      Providers.touched, FromdataAnswers.completes]

/-! ## Safe calls -/

/-- A call that unloads what it loaded comes when the default provider is active already, and keys
of stores live in the bridge only while that is active. -/
def Safe (s : Providers) : Call → Prop
  | .operation _ => True
  | .parseUri o => 0 < s.default ∨ o.loads = false
  | .fromUri o =>
    (0 < s.default ∨ o.loads = false) ∧ (o.key = some .witBridge → 0 < s.witBridge)
  | .fromWitBridgeUri o => o.completes = true ∨ 0 < s.default ∨ o.loadsDefault = false
  | .dropBridgeKey => True

theorem available_touched_iff {s : Providers} (h : s.Available) (loads : Bool) :
    (s.touched loads).Available ↔ 0 < s.default ∨ loads = false := by
  rw [Providers.Available, Providers.touched]
  rcases h with h | h
  · simp [h, or_comm]
  · simp [h]

theorem available_fetch {s : Providers} (h : s.Available) : 0 < s.fetch.default := by
  rw [Providers.fetch]
  rcases h with h | h
  · simp [h]
  · split
    · exact Nat.succ_pos _
    · exact h

/-- A call leaves intact providers intact exactly if it is safe. -/
theorem intact_step_iff {s : Providers} (h : s.Intact) (c : Call) :
    (step s c).2.Intact ↔ Safe s c := by
  obtain ⟨ha, hb⟩ := h
  cases c with
  | operation succeeds =>
    -- a fetch loads what can still be loaded automatically
    refine iff_of_true ⟨Or.inr (available_fetch ha), ?_⟩ trivial
    show s.fetch.BridgeServed
    rw [Providers.fetch]
    split <;> exact hb
  | parseUri o =>
    -- no key is made, so only the default provider is at stake
    show (parseUri o s).2.Intact ↔ _
    rw [parseUri_snd, Providers.Intact, available_touched_iff ha]
    exact and_iff_left hb
  | fromUri o =>
    show (fromUri o s).2.Intact ↔ _
    rw [fromUri_snd, Providers.Intact]
    refine and_congr (available_touched_iff ha o.loads) ?_
    -- a new key in the bridge needs an activation that was there before
    by_cases hkey : o.key = some .witBridge
    · simp [Providers.BridgeServed, Providers.touched, hkey]
    · simpa [Providers.BridgeServed, Providers.touched, hkey] using hb
  | fromWitBridgeUri o =>
    show (fromWitBridgeUri o s).2.Intact ↔ _
    rw [fromWitBridgeUri_snd]
    -- both providers stay for a key that was made
    by_cases hc : o.completes = true
    · rw [if_pos hc]
      exact iff_of_true ⟨Or.inr (Nat.succ_pos _), fun _ => Nat.succ_pos _⟩ (Or.inl hc)
    · rw [if_neg hc, Providers.Intact, available_touched_iff ha, Safe, or_iff_right hc]
      exact and_iff_left hb
  | dropBridgeKey =>
    refine iff_of_true ⟨ha, fun hk => hb ?_⟩ trivial
    exact Nat.lt_of_lt_of_le hk (Nat.sub_le _ _)

/-- What an ordinary operation answers where the default provider is available. -/
theorem step_operation {s : Providers} (h : s.Available) (succeeds : Bool) :
    (step s (.operation succeeds)).1 = succeeds := by
  rw [step]
  simp [available_fetch h]

end OpenSSLWasm.Provider
