import OpenSSLWasm.Lib.Ledger
import Mathlib.Data.Multiset.ZeroCons

/-!
# Handles of the backend and their wrappers

The resources of the provider that is composed in are handles, which OpenSSL's callbacks pass around
in wrappers. `src/provider_wit.c`, `src/encoder_wit.c`, `src/decoder_wit.c` and `src/store_wit.c`
make wrappers in several entry points, with two allocators, and free them in several others.

## Main definitions

* `Wrapper` and `Wrapper.held`: a wrapper, and what it holds;
* `witKeymgmtNew` and its companions: the entry points, with their ledgers;
* `Event` and `step`: calls in any order that OpenSSL allows;
* `State.WellFormed`: wrappers have addresses and handles of their own.

## Main results

* `settle_step`: a call acquires what comes to be held by wrappers, and releases what no longer is;
* `wellFormed_step`: a call keeps wrappers apart;
* `handles_held`: the live handles are those of the live wrappers, and every other handle has been
  dropped as often as it was got.
-/

namespace OpenSSLWasm.Provider.Handles

open Ledger Transcript

/-! ## Wrappers -/

/-- The resources of the backend. -/
inductive HandleType
  | keydata
  | signatureContext
  | encodeCtx
  | decodeCtx
  | loader
  deriving DecidableEq, Repr

inductive Allocator
  | libc
  | openssl
  deriving DecidableEq, Repr

/-- What the bridge has to give back: handles, and the memory of wrappers. -/
inductive Resource
  | handle (t : HandleType) (h : ℕ)
  | memory (alloc : Allocator) (addr : ℕ)
  deriving DecidableEq, Repr

/-- The wrappers, by the entry points that they are for. -/
inductive Kind
  /-- `wit_keydata_t` of a key manager. -/
  | keydata
  /-- `wit_keydata_t` of `wit_encoder_import_object`. -/
  | object
  | sigctx
  | encodeCtx
  | decodeCtx
  | loader
  deriving DecidableEq, Repr

namespace Kind

def type : Kind → HandleType
  | keydata | object => .keydata
  | sigctx => .signatureContext
  | encodeCtx => .encodeCtx
  | decodeCtx => .decodeCtx
  | loader => .loader

def allocator : Kind → Allocator
  | keydata | sigctx => .libc
  | object | encodeCtx | decodeCtx | loader => .openssl

/-- `WIT_ENCODE_CTX_MARKER` and so on; some wrappers have none. -/
def marker : Kind → Option (BitVec 32)
  | keydata | object | sigctx => none
  | encodeCtx => some 0x57454e43
  | decodeCtx => some 0x57444543
  | loader => some 0x57535452

end Kind

/-- A wrapper in memory. -/
structure Wrapper where
  kind : Kind
  addr : ℕ
  handle : ℕ
  owned : Bool := true
  marker : Option (BitVec 32) := kind.marker
  deriving DecidableEq, Repr

namespace Wrapper

variable (x : Wrapper)

/-- The handle of a wrapper as a resource. -/
def resource : Resource := .handle x.kind.type x.handle

def memory : Resource := .memory x.kind.allocator x.addr

/-- What a wrapper holds. -/
def held : List Resource := [x.resource, x.memory]

/-- As the entry points fill it in. -/
def Proper : Prop := x.owned = true ∧ x.marker = x.kind.marker

end Wrapper

/-! ## Entry points -/

section

/-- A handle gets a wrapper, or is dropped if there is no memory for one. -/
def wrap (k : Kind) (h : ℕ) (mem : Option ℕ) : Acct Resource (Option Wrapper) := do
  acquire (.handle k.type h)
  match mem with
  | none => do
    releaseAll [.handle k.type h]
    pure none
  | some addr => do
    acquire (.memory k.allocator addr)
    pure (some { kind := k, addr := addr, handle := h })

/-- The same for a call of the backend that may fail. -/
def wrapResult (k : Kind) (ret : Option ℕ) (mem : Option ℕ) : Acct Resource (Option Wrapper) :=
  match ret with
  | none => pure none
  | some h => wrap k h mem

def witKeymgmtNew := wrap .keydata

def witKeymgmtLoad := wrapResult .keydata

def witSignatureNewctx := wrap .sigctx

def witEncoderNewctx := wrap .encodeCtx

def witDecoderNewctx := wrap .decodeCtx

/-- The constructor of a loader is not called without a URI. -/
def witStoreOpen (uri : Bool) (h : ℕ) (mem : Option ℕ) : Acct Resource (Option Wrapper) :=
  if uri then wrap .loader h mem else pure none

/-- The object that an encoder makes of a foreign key. -/
def witEncoderImportObject (ctx : Wrapper) (ret mem : Option ℕ) :
    Acct Resource (Option Wrapper) :=
  if ctx.marker ≠ Kind.encodeCtx.marker then pure none
  else do
    useAll [ctx.resource]
    wrapResult .object ret mem

/-- The keys in what a decoder yields are dropped with the list. -/
def witDecoderDecode (ctx : Wrapper) (keys : Option (List ℕ)) : Acct Resource Unit :=
  if ctx.marker ≠ Kind.decodeCtx.marker then pure ()
  else do
    useAll [ctx.resource]
    let keys := (keys.getD []).map (Resource.handle .keydata)
    acquireAll keys
    releaseAll keys

/-- `free` on a wrapper that says whether it owns its handle. -/
def freeOwned (x : Wrapper) : Acct Resource Bool := do
  releaseAll (given x.owned x.resource)
  releaseAll [x.memory]
  pure true

/-- `OPENSSL_free` on a wrapper with a marker; whether it was freed. -/
def freeMarked (k : Kind) (x : Wrapper) : Acct Resource Bool :=
  if x.marker ≠ k.marker then pure false
  else do
    releaseAll [x.resource, x.memory]
    pure true

def witKeymgmtFree := freeOwned

def witSignatureFreectx := freeOwned

def witEncoderFreeObject := freeOwned

def witEncoderFreectx := freeMarked .encodeCtx

def witDecoderFreectx := freeMarked .decodeCtx

def witStoreClose := freeMarked .loader

end

/-! ## Runs -/

structure State where
  live : List Wrapper := []

/-- A call of OpenSSL. `h` and `ret` are what the backend returns, `mem` what the allocator does,
and `p` a pointer to a wrapper, or NULL. -/
inductive Event
  | keymgmtNew (h : ℕ) (mem : Option ℕ)
  | keymgmtLoad (ret mem : Option ℕ)
  | keymgmtFree (p : Option ℕ)
  | signatureNewctx (h : ℕ) (mem : Option ℕ)
  | signatureFreectx (p : Option ℕ)
  | encoderNewctx (h : ℕ) (mem : Option ℕ)
  | encoderFreectx (p : Option ℕ)
  | encoderImportObject (ctx : ℕ) (ret mem : Option ℕ)
  | encoderFreeObject (p : Option ℕ)
  | decoderNewctx (h : ℕ) (mem : Option ℕ)
  | decoderFreectx (p : Option ℕ)
  | decoderDecode (ctx : ℕ) (keys : Option (List ℕ))
  | storeOpen (uri : Bool) (h : ℕ) (mem : Option ℕ)
  | storeClose (p : Option ℕ)
  /-- Any other entry point: it lends the handles of the wrappers that it gets. -/
  | lend (ps : List ℕ)

/-- Whether OpenSSL, the backend and the allocators allow a call, with its ledger. -/
structure Answer where
  allowed : Bool
  entries : List (Entry Resource) := []

namespace State

variable (s : State)

def find (p : ℕ) : Option Wrapper := s.live.find? (·.addr = p)

/-- The wrapper at an address, if it is of a kind. -/
def findKind (k : Kind) (p : ℕ) : Option Wrapper := (s.find p).filter (·.kind = k)

def without (p : ℕ) : List Wrapper := s.live.eraseP (·.addr = p)

/-- The backend gives a handle that is not live, and the allocator memory that is not in use. -/
def Fresh (t : HandleType) (h : ℕ) (mem : Option ℕ) : Prop :=
  (∀ x ∈ s.live, x.resource ≠ .handle t h) ∧ ∀ a ∈ mem, ∀ x ∈ s.live, x.addr ≠ a

instance (t : HandleType) (h : ℕ) (mem : Option ℕ) : Decidable (s.Fresh t h mem) :=
  inferInstanceAs (Decidable (_ ∧ ∀ a ∈ mem, _))

/-- An entry point that may return a wrapper. -/
def make (fresh : Prop) [Decidable fresh] (p : Acct Resource (Option Wrapper)) : Answer × State :=
  if fresh then (⟨true, p.entries⟩, ⟨p.result.toList ++ s.live⟩) else (⟨false, []⟩, s)

/-- An entry point that frees the wrapper of a kind that it is given, if any. -/
def free (k : Kind) (f : Wrapper → Acct Resource Bool) : Option ℕ → Answer × State
  | none => (⟨true, []⟩, s)
  | some p =>
    match s.findKind k p with
    | none => (⟨false, []⟩, s)
    | some x => (⟨true, (f x).entries⟩, if (f x).result then ⟨s.without p⟩ else s)

/-- What the wrappers hold. -/
def owned : Multiset Resource := ↑(s.live.flatMap Wrapper.held)

end State

def step (s : State) : Event → Answer × State
  | .keymgmtNew h mem => s.make (s.Fresh .keydata h mem) (witKeymgmtNew h mem)
  | .keymgmtLoad ret mem =>
    s.make (∀ h ∈ ret, s.Fresh .keydata h mem) (witKeymgmtLoad ret mem)
  | .keymgmtFree p => s.free .keydata witKeymgmtFree p
  | .signatureNewctx h mem => s.make (s.Fresh .signatureContext h mem) (witSignatureNewctx h mem)
  | .signatureFreectx p => s.free .sigctx witSignatureFreectx p
  | .encoderNewctx h mem => s.make (s.Fresh .encodeCtx h mem) (witEncoderNewctx h mem)
  | .encoderFreectx p => s.free .encodeCtx witEncoderFreectx p
  | .encoderImportObject ctx ret mem =>
    match s.findKind .encodeCtx ctx with
    | none => (⟨false, []⟩, s)
    | some c =>
      s.make (∀ h ∈ ret, s.Fresh .keydata h mem) (witEncoderImportObject c ret mem)
  | .encoderFreeObject p => s.free .object witEncoderFreeObject p
  | .decoderNewctx h mem => s.make (s.Fresh .decodeCtx h mem) (witDecoderNewctx h mem)
  | .decoderFreectx p => s.free .decodeCtx witDecoderFreectx p
  | .decoderDecode ctx keys =>
    match s.findKind .decodeCtx ctx with
    | none => (⟨false, []⟩, s)
    | some c => (⟨true, (witDecoderDecode c keys).entries⟩, s)
  | .storeOpen uri h mem => s.make (s.Fresh .loader h mem) (witStoreOpen uri h mem)
  | .storeClose p => s.free .loader witStoreClose p
  | .lend ps =>
    match ps.mapM s.find with
    | none => (⟨false, []⟩, s)
    | some xs => (⟨true, (useAll (xs.map Wrapper.resource) : Acct Resource Unit).entries⟩, s)

/-! ## What the entry points do -/

/-- Wrappers are as they were filled in, with addresses and handles of their own. -/
structure State.WellFormed (s : State) : Prop where
  addr : (s.live.map Wrapper.addr).Nodup
  resource : (s.live.map Wrapper.resource).Nodup
  proper : ∀ x ∈ s.live, x.Proper

/-- An entry point returns a wrapper that holds what was acquired, and is unlike those that are
there. -/
structure Makes (s : State) (fresh : Prop) (p : Acct Resource (Option Wrapper)) : Prop where
  triple : Triple s.owned p fun o => ↑(o.toList.flatMap Wrapper.held) + s.owned
  new : fresh → ∀ x ∈ p.result, x.Proper ∧ ∀ y ∈ s.live, y.resource ≠ x.resource ∧ y.addr ≠ x.addr

/-- An entry point frees wrappers of a kind, with everything that they hold. -/
def Frees (k : Kind) (f : Wrapper → Acct Resource Bool) : Prop :=
  ∀ x : Wrapper, x.kind = k → x.Proper →
    (f x).result = true ∧ (f x).entries = x.held.map Entry.release

section

variable {s : State} {k : Kind} {h : ℕ} {mem : Option ℕ}

theorem makes_wrap : Makes s (s.Fresh k.type h mem) (wrap k h mem) := by
  rcases mem with _ | addr
  · refine ⟨Triple.acquire_then (Triple.exit rfl), fun _ x hx => ?_⟩
    cases hx
  · refine ⟨Triple.acquire_then (Triple.acquire_then (Triple.pure ?_)), fun hfresh x hx => ?_⟩
    · simp only [Option.toList_some, List.flatMap_singleton, Wrapper.held, coe_cons,
        Multiset.coe_nil, Wrapper.resource, Wrapper.memory, add_zero]
      abel
    · obtain rfl := Option.some.inj hx
      exact ⟨⟨rfl, rfl⟩, fun y hy => ⟨hfresh.1 y hy, hfresh.2 addr rfl y hy⟩⟩

theorem makes_none (fresh : Prop) : Makes s fresh (pure none) :=
  ⟨Triple.pure (zero_add _).symm, fun _ _ hx => by cases hx⟩

theorem makes_wrapResult {ret : Option ℕ} :
    Makes s (∀ h ∈ ret, s.Fresh k.type h mem) (wrapResult k ret mem) := by
  rcases ret with _ | h
  · exact makes_none _
  · have hwrap : Makes s (s.Fresh k.type h mem) (wrap k h mem) := makes_wrap
    exact ⟨hwrap.triple, fun hfresh => hwrap.new (hfresh h rfl)⟩

theorem makes_witStoreOpen {uri : Bool} :
    Makes s (s.Fresh .loader h mem) (witStoreOpen uri h mem) := by
  rcases uri with _ | _
  · exact makes_none _
  · exact makes_wrap (k := .loader)

theorem resource_mem_owned {x : Wrapper} (hx : x ∈ s.live) : x.resource ∈ s.owned :=
  List.mem_flatMap.mpr ⟨x, hx, List.mem_cons_self⟩

theorem makes_witEncoderImportObject {c : Wrapper} (hc : c ∈ s.live) {ret : Option ℕ} :
    Makes s (∀ h ∈ ret, s.Fresh .keydata h mem) (witEncoderImportObject c ret mem) := by
  unfold witEncoderImportObject
  split_ifs
  · exact makes_none _
  · have hwrap : Makes s (∀ h ∈ ret, s.Fresh Kind.object.type h mem) (wrapResult .object ret mem) :=
      makes_wrapResult
    refine ⟨Triple.useAll_then ?_ hwrap.triple, hwrap.new⟩
    exact List.forall_mem_singleton.mpr (resource_mem_owned hc)

theorem frees_freeOwned : Frees k freeOwned := by
  intro x _ hproper
  rw [freeOwned, hproper.1]
  exact ⟨rfl, rfl⟩

theorem frees_freeMarked : Frees k (freeMarked k) := by
  rintro x rfl hproper
  rw [freeMarked, if_neg (not_not.mpr hproper.2)]
  exact ⟨rfl, rfl⟩

theorem settle_witDecoderDecode {c : Wrapper} (hc : c ∈ s.live) (keys : Option (List ℕ)) :
    settle s.owned (witDecoderDecode c keys).entries = some s.owned := by
  have htriple : Triple s.owned (witDecoderDecode c keys) fun _ => s.owned := by
    rw [witDecoderDecode]
    refine Triple.ite (fun _ => Triple.pure rfl) fun _ => Triple.useAll_then ?_ ?_
    · exact List.forall_mem_singleton.mpr (resource_mem_owned hc)
    · exact Triple.acquireAll_then Triple.releaseAll
  exact htriple

theorem mem_of_find {p : ℕ} {x : Wrapper} (hx : s.find p = some x) : x ∈ s.live ∧ x.addr = p :=
  ⟨List.mem_of_find?_eq_some hx, by simpa using List.find?_some hx⟩

theorem find_of_findKind {p : ℕ} {x : Wrapper} (hx : s.findKind k p = some x) :
    s.find p = some x ∧ x.kind = k := by
  obtain ⟨hfind, hkind⟩ := Option.filter_eq_some_iff.mp hx
  exact ⟨hfind, by simpa using hkind⟩

theorem mem_of_mapM {ps : List ℕ} {xs : List Wrapper} (h : ps.mapM s.find = some xs) :
    ∀ x ∈ xs, x ∈ s.live := by
  intro x hx
  obtain ⟨p, -, hp⟩ := exists_of_mem_mapM h x hx
  exact (mem_of_find hp).1

/-- What one call can do: leave the wrappers and what they hold as they are, make one, or free
one. -/
theorem step_cases (s : State) (a : Event) :
    ((step s a).2 = s ∧ settle s.owned (step s a).1.entries = some s.owned) ∨
      (∃ (fresh : Prop) (_ : Decidable fresh) (p : Acct Resource (Option Wrapper)),
        step s a = s.make fresh p ∧ Makes s fresh p) ∨
      ∃ k f p, step s a = s.free k f p ∧ Frees k f := by
  cases a with
  | keymgmtNew h mem => exact Or.inr (Or.inl ⟨_, _, _, rfl, makes_wrap (k := .keydata)⟩)
  | keymgmtLoad ret mem =>
    exact Or.inr (Or.inl ⟨_, _, _, rfl, makes_wrapResult (k := .keydata)⟩)
  | keymgmtFree p => exact Or.inr (Or.inr ⟨_, _, p, rfl, frees_freeOwned⟩)
  | signatureNewctx h mem => exact Or.inr (Or.inl ⟨_, _, _, rfl, makes_wrap (k := .sigctx)⟩)
  | signatureFreectx p => exact Or.inr (Or.inr ⟨_, _, p, rfl, frees_freeOwned⟩)
  | encoderNewctx h mem => exact Or.inr (Or.inl ⟨_, _, _, rfl, makes_wrap (k := .encodeCtx)⟩)
  | encoderFreectx p => exact Or.inr (Or.inr ⟨_, _, p, rfl, frees_freeMarked⟩)
  | encoderImportObject ctx ret mem =>
    rcases hc : s.findKind .encodeCtx ctx with _ | c
    · left
      rw [step, hc]
      exact ⟨rfl, rfl⟩
    · have hstep : step s (.encoderImportObject ctx ret mem) =
          s.make (∀ h ∈ ret, s.Fresh .keydata h mem) (witEncoderImportObject c ret mem) := by
        rw [step, hc]
      have hlive := (mem_of_find (find_of_findKind hc).1).1
      exact Or.inr (Or.inl ⟨_, _, _, hstep, makes_witEncoderImportObject hlive⟩)
  | encoderFreeObject p => exact Or.inr (Or.inr ⟨_, _, p, rfl, frees_freeOwned⟩)
  | decoderNewctx h mem => exact Or.inr (Or.inl ⟨_, _, _, rfl, makes_wrap (k := .decodeCtx)⟩)
  | decoderFreectx p => exact Or.inr (Or.inr ⟨_, _, p, rfl, frees_freeMarked⟩)
  | decoderDecode ctx keys =>
    left
    rw [step]
    split
    next => exact ⟨rfl, rfl⟩
    next c hc => exact ⟨rfl, settle_witDecoderDecode (mem_of_find (find_of_findKind hc).1).1 keys⟩
  | storeOpen uri h mem => exact Or.inr (Or.inl ⟨_, _, _, rfl, makes_witStoreOpen⟩)
  | storeClose p => exact Or.inr (Or.inr ⟨_, _, p, rfl, frees_freeMarked⟩)
  | lend ps =>
    left
    rw [step]
    split
    next => exact ⟨rfl, rfl⟩
    next xs hxs =>
      refine ⟨rfl, Triple.useAll fun r hr => ?_⟩
      obtain ⟨x, hx, rfl⟩ := List.mem_map.mp hr
      exact resource_mem_owned (mem_of_mapM hxs x hx)

end

section

variable {s : State}

/-- What a wrapper that is found holds, and what the others do. -/
theorem owned_of_find {p : ℕ} {x : Wrapper} (hx : s.find p = some x) :
    s.owned = ↑x.held + (⟨s.without p⟩ : State).owned :=
  coe_flatMap_find hx Wrapper.held

/-- A call acquires what comes to be held by wrappers, and releases what no longer is. -/
theorem settle_step (h : s.WellFormed) (a : Event) :
    settle s.owned (step s a).1.entries = some (step s a).2.owned := by
  obtain ⟨hsame, hsettle⟩ | ⟨fresh, _, p, hstep, hmakes⟩ | ⟨k, f, p, hstep, hfrees⟩ := step_cases s a
  · rw [hsame, hsettle]
  · rw [hstep, State.make]
    split_ifs
    · refine hmakes.triple.trans (congrArg some ?_)
      simp only [State.owned, List.flatMap_append, coe_append]
    · rfl
  · rw [hstep]
    rcases p with _ | p
    · rfl
    rcases hx : s.findKind k p with _ | x
    · rw [State.free, hx]
      rfl
    · obtain ⟨hfind, hkind⟩ := find_of_findKind hx
      obtain ⟨hresult, hentries⟩ := hfrees x hkind (h.proper x (mem_of_find hfind).1)
      simp only [State.free, hx, hresult, if_true]
      rw [hentries, owned_of_find hfind]
      exact Triple.releaseAll

/-- A call keeps wrappers apart. -/
theorem wellFormed_step (h : s.WellFormed) (a : Event) : (step s a).2.WellFormed := by
  obtain ⟨hsame, -⟩ | ⟨fresh, _, p, hstep, hmakes⟩ | ⟨k, f, p, hstep, -⟩ := step_cases s a
  · rwa [hsame]
  · rw [hstep, State.make]
    split_ifs with hfresh
    · rcases hresult : p.result with _ | x
      · simpa using h
      · obtain ⟨hproper, hnew⟩ := hmakes.new hfresh x hresult
        refine ⟨List.nodup_cons.mpr ⟨fun hmem => ?_, h.addr⟩,
          List.nodup_cons.mpr ⟨fun hmem => ?_, h.resource⟩,
          List.forall_mem_cons.mpr ⟨hproper, h.proper⟩⟩
        · obtain ⟨y, hy, heq⟩ := List.mem_map.mp hmem
          exact (hnew y hy).2 heq
        · obtain ⟨y, hy, heq⟩ := List.mem_map.mp hmem
          exact (hnew y hy).1 heq
    · exact h
  · have hwithout : ∀ p, (⟨s.without p⟩ : State).WellFormed := fun p =>
      ⟨h.addr.sublist (List.eraseP_sublist.map _), h.resource.sublist (List.eraseP_sublist.map _),
        fun x hx => h.proper x (List.mem_of_mem_eraseP hx)⟩
    rw [hstep]
    unfold State.free
    split
    · exact h
    · split
      · exact h
      · split_ifs
        · exact hwithout _
        · exact h

end

theorem wellFormed_init : State.WellFormed {} := ⟨List.nodup_nil, List.nodup_nil, by simp⟩

theorem settle_log (events : List Event) :
    settle 0 (log Answer.entries (run step {} events).1) = some (run step {} events).2.owned ∧
      (run step {} events).2.WellFormed :=
  settle_run (s := ({} : State)) (I := State.WellFormed)
    (fun _ a h => ⟨settle_step h a, wellFormed_step h a⟩) wellFormed_init events

/-- How often a handle is held by wrappers. -/
theorem count_handle (s : State) (t : HandleType) (h : ℕ) :
    s.owned.count (.handle t h) = (s.live.map Wrapper.resource).count (.handle t h) := by
  unfold State.owned
  induction s.live with
  | nil => rfl
  | cons x xs ih =>
    have hmemory : x.memory ≠ .handle t h := nofun
    rw [List.flatMap_cons, coe_append, Multiset.count_add, ih, List.map_cons, List.count_cons,
      Multiset.coe_count, Wrapper.held, List.count_cons, List.count_cons, List.count_nil,
      if_neg (by simpa using hmemory)]
    omega

/-- In any order of calls that OpenSSL allows, wherever the backend and the allocators fail: no
handle is used or dropped that is not live; a handle is live exactly if a live wrapper holds it,
and only one does; and a handle has been dropped as often as it was got, but for the time that it
is live. -/
theorem handles_held (events : List Event) :
    let l := log Answer.entries (run step {} events).1
    let s := (run step {} events).2
    ∃ live, settle 0 l = some live ∧ ∀ t h,
      (.handle t h ∈ live ↔ ∃ x ∈ s.live, x.resource = .handle t h) ∧
      live.count (.handle t h) ≤ 1 ∧
      l.count (.acquire (.handle t h)) = live.count (.handle t h) + l.count (.release (.handle t h))
    := by
  intro l s
  obtain ⟨hsettle, hwell⟩ := settle_log events
  refine ⟨s.owned, hsettle, fun t h => ⟨?_, ?_, ?_⟩⟩
  · rw [← Multiset.count_pos, count_handle, List.count_pos_iff, List.mem_map]
  · rw [count_handle]
    exact List.nodup_iff_count_le_one.mp hwell.resource _
  · have hcount := count_settle hsettle (.handle t h)
    rwa [Multiset.count_zero, Nat.zero_add] at hcount

end OpenSSLWasm.Provider.Handles
