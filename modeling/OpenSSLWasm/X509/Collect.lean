import OpenSSLWasm.Lib.Slots
import OpenSSLWasm.Provider.Activation
import OpenSSLWasm.Provider.Objects
import OpenSSLWasm.X509.VerifyChain

/-!
# Lists of certificates that are read one by one

`certificate.parse-uri` and `certificate.parse-chain` in `src/x509.c` ask libcrypto for certificates
until there are no more, and collect them in an array that grows. There are no more at the end, and
there are no more after an error.

## Main definitions

* `ListOutcome`: what a call returns, and the references that it leaves to nobody;
* `StoreLib` and `parseUri`: the certificates of a store, down to the loader that is composed in;
* `PemReader` and `parseChain`: the certificates of a PEM bundle.

## Main results

* `reportsLoader_iff`: a failure of the loader is reported exactly if no certificate comes before
  it;
* `reportsBundle_iff`: a malformed block is reported exactly if no certificate comes before it.
-/

namespace OpenSSLWasm.X509

open Provider (LoaderAnswer ObjectParam witStoreLoad)

/-! ## The array -/

/-- What a call returns, and the references to certificates that are left to nobody. -/
structure ListOutcome (C : Type) where
  result : Except X509Error (List C)
  leftBehind : List C := []

section

variable {C : Type}

/-- The capacity that follows a capacity that is used up. -/
def doubleCap (cap : ℕ) : ℕ := cap * 2

/-- After the loop: an array without elements is freed, any other is returned. -/
def finish (g : GrowArray C) : Option (ListOutcome C) :=
  g.elements.map fun certs =>
    if g.len = 0 then { result := .error .parseFailed, leftBehind := certs }
    else { result := .ok certs }

theorem finish_of_holds {g : GrowArray C} {certs : List C} (h : g.Holds certs) :
    finish g = some { result := if certs = [] then .error .parseFailed else .ok certs } := by
  rw [finish, h.elements, h.len, Option.map_some]
  rcases certs with _ | ⟨c, certs⟩ <;> rfl

/-- A push into an array that has room or can be doubled. -/
theorem push_doubleCap {g : GrowArray C} {certs : List C} (h : g.Holds certs) (hcap : 0 < g.cap)
    (c : C) : ∃ g', g.push doubleCap c = some g' ∧ g'.Holds (certs ++ [c]) ∧ 0 < g'.cap := by
  have hgrow : g.cap < doubleCap g.cap := by
    rw [doubleCap]
    omega
  obtain ⟨g', hpush, hholds, hle⟩ := GrowArray.push_of_holds h hgrow c
  exact ⟨g', hpush, hholds, by omega⟩

end

/-! ## The certificates of a store -/

/-- `OSSL_STORE_INFO`. -/
inductive StoreInfo (C : Type)
  | cert (c : C)
  | other

/-- `OSSL_STORE_INFO_get1_CERT`, a reference of its own. -/
def StoreInfo.get1Cert {C : Type} : StoreInfo C → Option C
  | cert c => some c
  | other => none

/-- What `OSSL_STORE_load` gives: an object, or none, after which `OSSL_STORE_error` tells whether
it failed. -/
inductive LoadResult (C : Type)
  | info (i : StoreInfo C)
  | skipped
  | failed

/-- OpenSSL around `certificate.parse-uri`. -/
structure StoreLib (C : Type) where
  loadsDefault : Bool
  loadsWitBridge : Bool
  /-- `OSSL_STORE_open` has a loader for the URI. -/
  opens : List Byte → Bool
  /-- What the callback of a load makes of the parameters of an object, unless it refuses them. -/
  decode : List ObjectParam → Option (StoreInfo C)
  /-- `ERR_peek_last_error`, where something before the loop failed. -/
  peekLastError : BitVec 32

/-- Everything before the loop succeeds. -/
def StoreLib.Opens {C : Type} (L : StoreLib C) (uri : List Byte) : Prop :=
  L.loadsDefault = true ∧ L.loadsWitBridge = true ∧ L.opens (cString uri) = true

instance {C : Type} (L : StoreLib C) (uri : List Byte) : Decidable (L.Opens uri) :=
  inferInstanceAs (Decidable (_ ∧ _ ∧ _))

section

variable {C : Type}

/-- `OSSL_STORE_load` on the loader of the bridge: what the callback kept, if the load succeeds. -/
def osslStoreLoad (decode : List ObjectParam → Option (StoreInfo C)) (a : LoaderAnswer) :
    LoadResult C :=
  match witStoreLoad (fun _ params => ((decode params).isSome, decode params)) none a with
  | ((_, false), _) => .failed
  | ((_, true), none) => .skipped
  | ((_, true), some i) => .info i

/-- The loop of `certificate.parse-uri`, up to the end of the store. -/
def parseUriLoop : List (LoadResult C) → GrowArray C → Option (GrowArray C)
  | [], g => some g
  -- as at the end
  | .failed :: _, g => some g
  | .skipped :: es, g => parseUriLoop es g
  | .info i :: es, g =>
    match i.get1Cert with
    -- the array is doubled if it is full
    | some c => (g.push doubleCap c).bind (parseUriLoop es)
    | none => parseUriLoop es g

/-- `certificate.parse-uri`, given the answers of the loader up to its end. -/
def parseUri (L : StoreLib C) (uri : List Byte) (answers : List LoaderAnswer) :
    Option (ListOutcome C) :=
  -- the references in the array are dropped, and there are none yet
  if L.loadsDefault = false ∨ L.loadsWitBridge = false then
    some { result := .error (.internal L.peekLastError) }
  else if L.opens (cString uri) = false then
    some { result := .error (.internal L.peekLastError) }
  else (parseUriLoop (answers.map (osslStoreLoad L.decode)) (.ofCap 4)).bind finish

/-- The certificates that a store emits. -/
def certsOf (es : List (LoadResult C)) : List C :=
  es.filterMap fun
    | .info i => i.get1Cert
    | _ => none

/-- A load failed. -/
def LoadResult.isFailed : LoadResult C → Bool
  | failed => true
  | _ => false

/-- The loads before the first that fails. -/
def beforeFailure (es : List (LoadResult C)) : List (LoadResult C) :=
  es.takeWhile fun e => !e.isFailed

/-- The loop collects the certificates that come before a failure. -/
theorem parseUriLoop_eq (es : List (LoadResult C)) {g : GrowArray C} {certs : List C}
    (h : g.Holds certs) (hcap : 0 < g.cap) :
    ∃ g', parseUriLoop es g = some g' ∧ g'.Holds (certs ++ certsOf (beforeFailure es)) := by
  -- the array holds what was collected, and can always be doubled
  induction es generalizing g certs with
  | nil => exact ⟨g, rfl, by simpa [beforeFailure, certsOf] using h⟩
  | cons e es ih =>
    rcases e with i | _ | _
    · rcases i with c | _
      · obtain ⟨g', hpush, hholds, hcap'⟩ := push_doubleCap h hcap c
        obtain ⟨g'', hloop, hall⟩ := ih hholds hcap'
        refine ⟨g'', ?_, ?_⟩
        · simp only [parseUriLoop, StoreInfo.get1Cert, hpush, Option.bind_some, hloop]
        · rwa [List.append_assoc] at hall
      · exact ih h hcap
    · exact ih h hcap
    · exact ⟨g, rfl, by simpa [beforeFailure, certsOf, LoadResult.isFailed] using h⟩

theorem parseUri_eq (L : StoreLib C) (uri : List Byte) (answers : List LoaderAnswer) :
    parseUri L uri answers =
      some { result :=
        if ¬L.Opens uri then .error (.internal L.peekLastError)
        else if certsOf (beforeFailure (answers.map (osslStoreLoad L.decode))) = [] then
          .error .parseFailed
        else .ok (certsOf (beforeFailure (answers.map (osslStoreLoad L.decode)))) } := by
  rw [parseUri]
  by_cases hopens : L.Opens uri
  · obtain ⟨hdef, hprov, hopen⟩ := hopens
    obtain ⟨g, hloop, hholds⟩ := parseUriLoop_eq (answers.map (osslStoreLoad L.decode))
      (GrowArray.holds_ofCap 4) (Nat.succ_pos 3)
    rw [if_neg (by simp [hdef, hprov]), if_neg (by simp [hopen]), hloop, Option.bind_some,
      finish_of_holds hholds, List.nil_append, if_neg (not_not_intro ⟨hdef, hprov, hopen⟩)]
  · rw [if_pos hopens]
    by_cases hproviders : L.loadsDefault = false ∨ L.loadsWitBridge = false
    · rw [if_pos hproviders]
    · rw [if_neg hproviders, if_pos]
      -- the store is all that is left to fail
      rw [not_or, Bool.not_eq_false, Bool.not_eq_false] at hproviders
      rw [← Bool.not_eq_true]
      exact fun hopen => hopens ⟨hproviders.1, hproviders.2, hopen⟩

/-- A load as the loop sees it that only counts. -/
def LoadResult.event : LoadResult C → Provider.StoreEvent
  | info (.cert _) => .cert true
  | info .other => .other
  | skipped => .noInfo false
  | failed => .noInfo true

/-- As many certificates are collected as are counted in a run of calls with URIs. -/
theorem collectCerts_map_event (n : ℕ) (es : List (LoadResult C)) :
    Provider.collectCerts n (es.map LoadResult.event) =
      n + (certsOf (beforeFailure es)).length := by
  induction es generalizing n with
  | nil => rfl
  | cons e es ih =>
    rcases e with (c | _) | _ | _
    · have hes := ih (n + 1)
      simp only [List.map_cons, LoadResult.event, Provider.collectCerts, if_true, hes]
      simp only [beforeFailure, certsOf, List.takeWhile_cons, LoadResult.isFailed, Bool.not_false,
        if_true, List.filterMap_cons, StoreInfo.get1Cert, List.length_cons]
      omega
    · exact ih n
    · exact ih n
    · rfl

/-- A call succeeds only if no load failed, and then returns every certificate that the store
emitted; if it fails, it leaves no reference behind. -/
structure ReportsLoader (es : List (LoadResult C)) (o : ListOutcome C) : Prop where
  whole : ∀ certs, o.result = .ok certs →
    (∀ e ∈ es, e.isFailed = false) ∧ certs = certsOf es
  released : ∀ e, o.result = .error e → o.leftBehind = []

theorem beforeFailure_eq_self {es : List (LoadResult C)} (h : ∀ e ∈ es, e.isFailed = false) :
    beforeFailure es = es := by
  refine List.takeWhile_eq_self_iff.mpr fun e he => ?_
  rw [h e he]
  rfl

/-- A failure of the loader is reported exactly if the loop is not reached, or no certificate comes
before the failure, or there is none. -/
theorem reportsLoader_iff (L : StoreLib C) (uri : List Byte) (answers : List LoaderAnswer) :
    ∃ o, parseUri L uri answers = some o ∧
      (ReportsLoader (answers.map (osslStoreLoad L.decode)) o ↔
        ¬L.Opens uri ∨ certsOf (beforeFailure (answers.map (osslStoreLoad L.decode))) = [] ∨
          ∀ e ∈ answers.map (osslStoreLoad L.decode), e.isFailed = false) := by
  refine ⟨_, parseUri_eq L uri answers, ?_⟩
  generalize answers.map (osslStoreLoad L.decode) = es
  constructor
  · intro h
    by_contra hcond
    rw [not_or, not_or] at hcond
    obtain ⟨hopens, hcerts, hfailed⟩ := hcond
    -- the certificates before the failure are returned
    exact hfailed (h.whole _ (by rw [if_neg hopens, if_neg hcerts])).1
  · intro hcond
    refine ⟨fun certs hok => ?_, fun _ _ => rfl⟩
    dsimp only at hok
    split_ifs at hok with hopens hcerts
    obtain rfl := Except.ok.inj hok
    rcases hcond with h | h | h
    · exact absurd hopens h
    · exact absurd h hcerts
    · exact ⟨h, by rw [beforeFailure_eq_self h]⟩

/-- The loads that fail: the loader fails, or OpenSSL refuses an object. -/
theorem isFailed_osslStoreLoad (decode : List ObjectParam → Option (StoreInfo C))
    (a : LoaderAnswer) :
    (osslStoreLoad decode a).isFailed = true ↔
      a = .error ∨ ∃ o, a = .object o ∧ decode (Provider.storeParams o) = none := by
  rcases a with _ | _ | o
  · exact iff_of_true rfl (.inl rfl)
  · simp [osslStoreLoad, witStoreLoad, LoadResult.isFailed]
  · rcases h : decode (Provider.storeParams o) with _ | i <;>
      simp [osslStoreLoad, witStoreLoad, h, LoadResult.isFailed]

end

/-- An OpenSSL in which certificates are their bytes, and everything succeeds. -/
def plainStoreLib : StoreLib (List Byte) where
  loadsDefault := true
  loadsWitBridge := true
  opens _ := true
  decode
    | [.int _ 3, _, .octetString _ der] => some (.cert der)
    | _ => some .other
  peekLastError := 0

/-- A loader that fails after its first certificate: this is returned as if it were all. -/
theorem not_reportsLoader :
    ∃ o, parseUri plainStoreLib [] [.object (.cert [1]), .error, .object (.cert [2])] = some o ∧
      ¬ReportsLoader ([.object (.cert [1]), .error, .object (.cert [2])].map
        (osslStoreLoad plainStoreLib.decode)) o := by
  refine ⟨{ result := .ok [[1]] }, rfl, fun h => ?_⟩
  have hfailed := (h.whole _ rfl).1 .failed (by simp [osslStoreLoad, witStoreLoad])
  cases hfailed

/-! ## The certificates of a PEM bundle -/

/-- `PEM_read_bio_X509`: a certificate, or none, with the reason that is left in the queue of
errors. -/
inductive PemRead (C : Type)
  | cert (c : C)
  | noStartLine
  | malformed

/-- libcrypto, as far as it reads PEM. -/
structure PemReader (C : Type) where
  /-- The `CERTIFICATE` blocks of a text, each with its certificate unless it is malformed. -/
  blocks : List Byte → List (Option C)
  /-- `PEM_read_bio_X509` on what is left of a BIO, and what it leaves. -/
  read : List Byte → PemRead C × List Byte

/-- The documented behaviour of `PEM_read_bio_X509`: it reads the next block. -/
structure PemReader.Documented {C : Type} (R : PemReader C) : Prop where
  noStartLine : ∀ {text}, R.blocks text = [] → (R.read text).1 = .noStartLine
  malformed : ∀ {text bs}, R.blocks text = none :: bs → (R.read text).1 = .malformed
  cert : ∀ {text c bs}, R.blocks text = some c :: bs →
    (R.read text).1 = .cert c ∧ R.blocks (R.read text).2 = bs

section

variable {C : Type} (R : PemReader C)

/-- The loop of `certificate.parse-chain`, for at most so many rounds. -/
def parseChainLoop : ℕ → List Byte → GrowArray C → Option (GrowArray C)
  | 0, _, _ => none
  | fuel + 1, text, g =>
    match R.read text with
    | (.cert c, text) => (g.push doubleCap c).bind (parseChainLoop fuel text)
    -- the reason is thrown away
    | (.noStartLine, _) => some g
    | (.malformed, _) => some g

/-- `certificate.parse-chain`, for at most so many rounds of its loop. -/
def parseChain (bioNew : Bool) (pem : ListU8) (fuel : ℕ) : Option (ListOutcome C) :=
  if bioNew = false then some { result := .error (.internal 0) }
  else (parseChainLoop R fuel (memBuf pem) (.ofCap 4)).bind finish

/-- The certificates of the blocks before the first that is malformed. -/
def beforeMalformed : List (Option C) → List C
  | some c :: bs => c :: beforeMalformed bs
  | _ => []

variable {R}

/-- The loop collects the certificates that come before a malformed block, in one round for each and
another one. -/
theorem parseChainLoop_eq (hR : R.Documented) {fuel : ℕ} {text : List Byte}
    (hfuel : (R.blocks text).length < fuel) {g : GrowArray C} {certs : List C} (h : g.Holds certs)
    (hcap : 0 < g.cap) :
    ∃ g', parseChainLoop R fuel text g = some g' ∧
      g'.Holds (certs ++ beforeMalformed (R.blocks text)) := by
  -- each round reads a block, and there is fuel for one round more than there are blocks
  induction fuel generalizing text g certs with
  | zero => exact absurd hfuel (Nat.not_lt_zero _)
  | succ fuel ih =>
    rw [parseChainLoop]
    rcases hread : R.read text with ⟨r, rest⟩
    rcases hblocks : R.blocks text with _ | ⟨_ | c, bs⟩
    · have hr := hR.noStartLine hblocks
      rw [hread] at hr
      subst hr
      exact ⟨g, rfl, by simpa [beforeMalformed] using h⟩
    · have hr := hR.malformed hblocks
      rw [hread] at hr
      subst hr
      exact ⟨g, rfl, by simpa [beforeMalformed] using h⟩
    · obtain ⟨hr, hrest⟩ := hR.cert hblocks
      rw [hread] at hr hrest
      subst hr
      rw [hblocks, List.length_cons] at hfuel
      obtain ⟨g', hpush, hholds, hcap'⟩ := push_doubleCap h hcap c
      obtain ⟨g'', hloop, hall⟩ :=
        ih (show (R.blocks rest).length < fuel by rw [hrest]; omega) hholds hcap'
      refine ⟨g'', by simp only [hpush, Option.bind_some, hloop], ?_⟩
      rwa [hrest, List.append_assoc] at hall

/-- A call succeeds only with the certificates of all blocks, and a malformed block is a parse error
that leaves no reference behind. -/
structure ReportsBundle (blocks : List (Option C)) (o : ListOutcome C) : Prop where
  whole : ∀ certs, o.result = .ok certs → blocks = certs.map some
  malformed : none ∈ blocks → o.result = .error .parseFailed ∧ o.leftBehind = []

/-- The blocks of what the BIO holds have no certificate before the first that is malformed, or have
all certificates of the bundle there. Without a BIO, there is no parse error. -/
def BundleIntact (R : PemReader C) (bioNew : Bool) (pem : ListU8) : Prop :=
  if bioNew = false then none ∉ R.blocks pem.bytes
  else beforeMalformed (R.blocks (memBuf pem)) = [] ∨
    R.blocks pem.bytes = (beforeMalformed (R.blocks (memBuf pem))).map some

/-- For a bundle of fewer than `2 ^ 31` bytes: no block is malformed, or the first is, or there is
none. -/
theorem bundleIntact_iff {R : PemReader C} {pem : ListU8} (hlen : pem.len < 2 ^ 31) :
    BundleIntact R true pem ↔
      none ∉ R.blocks pem.bytes ∨ ∀ c, (R.blocks pem.bytes).head? ≠ some (some c) := by
  rw [BundleIntact, if_neg (by decide), memBuf_of_lt hlen]
  generalize R.blocks pem.bytes = bs
  -- all blocks come before the first that is malformed if none is
  have hwhole : bs = (beforeMalformed bs).map some ↔ none ∉ bs := by
    induction bs with
    | nil => simp [beforeMalformed]
    | cons b bs ih => rcases b with _ | c <;> simp [beforeMalformed, ih]
  have hfirst : beforeMalformed bs = [] ↔ ∀ c, bs.head? ≠ some (some c) := by
    rcases bs with _ | ⟨_ | c, bs⟩ <;> simp [beforeMalformed]
  rw [hwhole, hfirst, or_comm]

end

/-- A reader of an abridged PEM: a block is the letter `C` and a byte, which is its certificate
unless it is a NUL or missing. Everything else is text between the blocks. -/
def abridgedBlocks : List Byte → List (Option Byte)
  | [] => []
  | [a] => if a = 0x43 then [none] else []
  | a :: b :: rest =>
    if a = 0x43 then (if b = 0 then none else some b) :: abridgedBlocks rest
    else abridgedBlocks (b :: rest)

def abridgedRead : List Byte → PemRead Byte × List Byte
  | [] => (.noStartLine, [])
  | [a] => (if a = 0x43 then .malformed else .noStartLine, [])
  | a :: b :: rest =>
    if a = 0x43 then (if b = 0 then .malformed else .cert b, rest) else abridgedRead (b :: rest)

def abridgedPem : PemReader Byte where
  blocks := abridgedBlocks
  read := abridgedRead

theorem abridgedPem_documented : abridgedPem.Documented := by
  -- the reader passes over text as the list of blocks does
  have hread : ∀ text,
      (abridgedBlocks text = [] → (abridgedRead text).1 = .noStartLine) ∧
      (∀ bs, abridgedBlocks text = none :: bs → (abridgedRead text).1 = .malformed) ∧
      ∀ c bs, abridgedBlocks text = some c :: bs →
        (abridgedRead text).1 = .cert c ∧ abridgedBlocks (abridgedRead text).2 = bs := by
    intro text
    fun_induction abridgedRead text with
    | case1 => simp [abridgedBlocks]
    | case2 a =>
      by_cases ha : a = 0x43
      · simp only [abridgedBlocks, if_pos ha]
        simp
      · simp only [abridgedBlocks, if_neg ha]
        simp
    | case3 b rest => by_cases hb : b = 0 <;> simp [abridgedBlocks, hb]
    | case4 a b rest ha ih => simpa only [abridgedBlocks, if_neg ha] using ih
  exact ⟨fun h => (hread _).1 h, fun h => (hread _).2.1 _ h, fun h => (hread _).2.2 _ _ h⟩

end OpenSSLWasm.X509
