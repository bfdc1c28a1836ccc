import OpenSSLWasm.Lib.Transcript
import OpenSSLWasm.Provider.Params

/-!
# Parameters of signature contexts behind the bridge

`src/provider_wit.c` tells OpenSSL which parameters can be set for a signature, and is then given
arrays of `OSSL_PARAM` by two routes: when signing is initialised, and by `set_ctx_params` at any
time. The signature context of the provider that is composed in gets what the bridge passes on.

## Main definitions

* `witSignatureSettableEcdsa`, `witSignatureSettableRsaPss`: the parameters that are advertised;
* `SignContexts`: the signature contexts behind the bridge;
* `SigCall.step`: the entry points that take parameters;
* `ParamsGiven`: a call that returns 1 has passed on every parameter.

## Main results

* `paramsGiven_iff`: this is so exactly for the runs that never set parameters, and initialise with
  strings only.
-/

namespace OpenSSLWasm.Provider

open Transcript

/-! ## What is advertised -/

/-- An entry of a table of parameters. -/
structure ParamDescriptor where
  key : List Byte
  dataType : DataType
  deriving DecidableEq, Repr

def witSignatureSettableEcdsa : List ParamDescriptor :=
  [⟨ascii "digest", .utf8String⟩]

def witSignatureSettableRsaPss : List ParamDescriptor :=
  [⟨ascii "digest", .utf8String⟩,
    ⟨ascii "properties", .utf8String⟩,
    ⟨ascii "pad-mode", .utf8String⟩,
    ⟨ascii "mgf1-digest", .utf8String⟩,
    ⟨ascii "mgf1-properties", .utf8String⟩,
    ⟨ascii "saltlen", .integer⟩]

/-- The parameter is one of a table, and has a value. -/
def OsslParam.Advertised (settable : List ParamDescriptor) (p : OsslParam) : Prop :=
  ⟨p.key, p.dataType⟩ ∈ settable ∧ p.data.isNull = false

/-! ## The bridge -/

/-- `ossl-param` of the signature interface. -/
structure SignParam where
  key : List Byte
  value : WitValue
  deriving DecidableEq, Repr

/-- `p->data_size` bytes at `p->data`. -/
def Buffer.bytes : Buffer → List Byte
  | null _ => []
  | mem bytes => bytes

/-- Strings are copied, other parameters are left out. -/
def buildWitParamsForSign (params : Option (List OsslParam)) : List SignParam :=
  ((params.getD []).filter (·.dataType = .utf8String)).map fun p =>
    ⟨p.key, .utf8String p.data.bytes⟩

/-- The `signature-context` resource, as far as it is initialised: whether it accepts, and the
context that it leaves. `κ` are the keys. -/
structure SignContexts (σ κ : Type) where
  signInit : σ → κ → List SignParam → Bool × σ
  digestSignInit : σ → Option (List Byte) → κ → List SignParam → Bool × σ

/-- The calls of OpenSSL that take parameters. The key may be missing. -/
inductive SigCall (κ : Type)
  | setCtxParams (params : Option (List OsslParam))
  | signInit (provkey : Option κ) (params : Option (List OsslParam))
  | digestSignInit (mdname : Option (List Byte)) (provkey : Option κ)
      (params : Option (List OsslParam))

/-- What a call returns, and the parameters that the signature context is given on the way. -/
structure SigAnswer where
  ret : Bool
  given : List SignParam := []

namespace SigCall

variable {σ κ : Type}

def params : SigCall κ → List OsslParam
  | setCtxParams params => params.getD []
  | signInit _ params => params.getD []
  | digestSignInit _ _ params => params.getD []

/-- `wit_signature_set_ctx_params`, `wit_signature_sign_init` and
`wit_signature_digest_sign_init`. -/
def step (B : SignContexts σ κ) (c : σ) : SigCall κ → SigAnswer × σ
  -- neither the context nor the parameters are looked at
  | setCtxParams _ => ({ ret := true }, c)
  -- a context without a key
  | signInit none _ => ({ ret := false }, c)
  | signInit (some k) params =>
    let wp := buildWitParamsForSign params
    let (ok, c) := B.signInit c k wp
    ({ ret := ok, given := wp }, c)
  | digestSignInit _ none _ => ({ ret := false }, c)
  | digestSignInit mdname (some k) params =>
    let wp := buildWitParamsForSign params
    let (ok, c) := B.digestSignInit c (mdname.map cString) k wp
    ({ ret := ok, given := wp }, c)

end SigCall

/-! ## What should be given -/

/-- The value of a parameter: the string, or the number in its bytes, the lowest first. -/
def OsslParam.value? (p : OsslParam) : Option WitValue :=
  match p.dataType with
  | .utf8String => some (.utf8String p.data.bytes)
  | .integer =>
    -- the sign is that of the width in which the number is stored
    let bytes := p.data.bytes
    let n := bytes.foldr (fun b n => b.toNat + 256 * n) 0
    some (.integer ((BitVec.ofNat (8 * bytes.length) n).signExtend 64))
  | _ => none

/-- The parameter was given with its value. -/
def Carries (p : OsslParam) (w : SignParam) : Prop := w.key = p.key ∧ p.value? = some w.value

/-- Whatever the provider, in a run of calls every call that returns 1 has given the signature
context every parameter that it was passed. -/
def ParamsGiven {κ : Type} (calls : List (SigCall κ)) : Prop :=
  ∀ (σ : Type) (B : SignContexts σ κ) (c : σ), ∀ a ∈ (run (SigCall.step B) c calls).1,
    a.2.ret = true → ∀ p ∈ a.1.params, ∃ w ∈ a.2.given, Carries p w

/-- The parameters of a call that can be passed on: none at any time, and strings to an
initialisation. An initialisation without a key is refused, whatever its parameters. -/
def SigCall.Passable {κ : Type} : SigCall κ → Prop
  | setCtxParams params => params.getD [] = []
  | signInit provkey params =>
    provkey.isSome = true → ∀ p ∈ params.getD [], p.dataType = .utf8String
  | digestSignInit _ provkey params =>
    provkey.isSome = true → ∀ p ∈ params.getD [], p.dataType = .utf8String

/-! ## Results -/

/-- A string is passed on with its value. -/
theorem exists_carries {params : Option (List OsslParam)} {p : OsslParam} (hp : p ∈ params.getD [])
    (hstring : p.dataType = .utf8String) : ∃ w ∈ buildWitParamsForSign params, Carries p w := by
  refine ⟨⟨p.key, .utf8String p.data.bytes⟩, ?_, rfl, ?_⟩
  · refine List.mem_map.mpr ⟨p, List.mem_filter.mpr ⟨hp, ?_⟩, rfl⟩
    simpa using hstring
  · rw [OsslParam.value?, hstring]

/-- Nothing but strings is passed on. -/
theorem Carries.dataType_eq {params : Option (List OsslParam)} {p : OsslParam} {w : SignParam}
    (hw : w ∈ buildWitParamsForSign params) (h : Carries p w) : p.dataType = .utf8String := by
  obtain ⟨q, -, rfl⟩ := List.mem_map.mp hw
  obtain ⟨-, hvalue⟩ := h
  -- a number would have the value of a string
  rw [OsslParam.value?] at hvalue
  split at hvalue
  · assumption
  · cases hvalue
  · cases hvalue

variable {κ : Type}

/-- A single call gives what can be passed on, whatever the provider and its context. -/
theorem given_of_passable {call : SigCall κ} (h : call.Passable) {σ : Type} (B : SignContexts σ κ)
    (c : σ) (hret : (call.step B c).1.ret = true) :
    ∀ p ∈ call.params, ∃ w ∈ (call.step B c).1.given, Carries p w := by
  intro p hp
  rcases call with params | ⟨_ | k, params⟩ | ⟨mdname, _ | k, params⟩
  · -- there is no parameter
    rw [SigCall.params, h] at hp
    cases hp
  · cases hret
  · exact exists_carries hp (h rfl p hp)
  · cases hret
  · exact exists_carries hp (h rfl p hp)

/-- A provider that accepts everything. -/
def acceptingContexts (κ : Type) : SignContexts Unit κ where
  signInit _ _ _ := (true, ())
  digestSignInit _ _ _ _ := (true, ())

/-- What it is given by every call can be passed on. -/
theorem passable_of_given {call : SigCall κ}
    (h : (call.step (acceptingContexts κ) ()).1.ret = true →
      ∀ p ∈ call.params, ∃ w ∈ (call.step (acceptingContexts κ) ()).1.given, Carries p w) :
    call.Passable := by
  rcases call with params | ⟨_ | k, params⟩ | ⟨mdname, _ | k, params⟩
  · -- nothing is ever given here
    refine List.eq_nil_iff_forall_not_mem.mpr fun p hp => ?_
    obtain ⟨w, hw, -⟩ := h rfl p hp
    cases hw
  · rintro ⟨⟩
  · intro _ p hp
    obtain ⟨w, hw, hcarries⟩ := h rfl p hp
    exact hcarries.dataType_eq hw
  · rintro ⟨⟩
  · intro _ p hp
    obtain ⟨w, hw, hcarries⟩ := h rfl p hp
    exact hcarries.dataType_eq hw

/-- Whether a call returns 1 says that its parameters were given exactly in the runs in which
`set_ctx_params` never has any, and an initialisation has strings only. -/
theorem paramsGiven_iff (calls : List (SigCall κ)) :
    ParamsGiven calls ↔ ∀ call ∈ calls, call.Passable := by
  constructor
  · intro h call hcall
    apply passable_of_given
    -- the contexts of this provider are all the same, so its answers are those of single calls
    rw [← map_fst_run (SigCall.step (acceptingContexts κ)) () calls] at hcall
    obtain ⟨a, ha, rfl⟩ := List.mem_map.mp hcall
    obtain ⟨-, c, hanswer⟩ := exists_of_mem_run _ ha
    have hgiven := h Unit (acceptingContexts κ) () a ha
    rwa [hanswer] at hgiven
  · -- each answer of the run was given in some state, which does not matter
    intro h σ B c a ha hret p hp
    obtain ⟨hcall, t, hanswer⟩ := exists_of_mem_run _ ha
    rw [hanswer] at hret ⊢
    exact given_of_passable (h a.1 hcall) B t hret p hp

/-- Of the parameters that are advertised, the salt length alone is no string. -/
theorem dataType_of_advertised {settable : List ParamDescriptor}
    (hsettable : settable ∈ [witSignatureSettableEcdsa, witSignatureSettableRsaPss])
    {p : OsslParam} (hp : p.Advertised settable) :
    p.dataType = .utf8String ↔ p.key ≠ ascii "saltlen" := by
  obtain ⟨hmem, -⟩ := hp
  have hall : ∀ settable ∈ [witSignatureSettableEcdsa, witSignatureSettableRsaPss],
      ∀ d ∈ settable, d.dataType = .utf8String ↔ d.key ≠ ascii "saltlen" := by decide
  exact hall settable hsettable _ hmem

/-- The digest SHA256. -/
def digestParam : OsslParam where
  key := ascii "digest"
  dataType := .utf8String
  data := .mem (ascii "SHA256")
  returnSize := osslParamUnmodified

/-- A salt of 32 bytes. -/
def saltlenParam : OsslParam where
  key := ascii "saltlen"
  dataType := .integer
  data := .mem [32, 0, 0, 0]
  returnSize := osslParamUnmodified

/-- Both are advertised for RSA-PSS. The digest is not passed on if it is set, the salt length is
not passed on when signing is initialised, and both calls return 1. -/
theorem not_paramsGiven :
    (digestParam.Advertised witSignatureSettableRsaPss ∧
      ¬ParamsGiven [SigCall.setCtxParams (κ := Unit) (some [digestParam])]) ∧
    saltlenParam.Advertised witSignatureSettableRsaPss ∧
      ¬ParamsGiven [SigCall.signInit (some ()) (some [saltlenParam])] := by
  refine ⟨⟨⟨by decide, rfl⟩, fun h => ?_⟩, ⟨by decide, rfl⟩, fun h => ?_⟩
  · obtain ⟨w, hw, -⟩ := h Unit (acceptingContexts Unit) () _ List.mem_cons_self rfl digestParam
      List.mem_cons_self
    cases hw
  · obtain ⟨w, hw, -⟩ := h Unit (acceptingContexts Unit) () _ List.mem_cons_self rfl saltlenParam
      List.mem_cons_self
    cases hw

end OpenSSLWasm.Provider
