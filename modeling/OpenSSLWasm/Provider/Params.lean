import Mathlib.Data.List.Forall2
import OpenSSLWasm.Support

/-!
# Parameters of keys behind the bridge

OpenSSL asks a provider for parameters with an array of `OSSL_PARAM`, in which each request says
where its value goes and learns its size. `wit_keymgmt_get_params` in `src/provider_wit.c` fills the
requests from the parameters that the provider behind the bridge has for the key.

## Main definitions

* `OsslParam` and `OsslParam.Modified`: a request, and how its sender sees that it was answered;
* `WitParam`: a parameter of the provider;
* `fillOneOsslParam` and `witKeymgmtGetParams`: one request, and the whole array;
* `WitParam.fits`: the value of a parameter can be stored for a request.

## Main results

* `fillOneOsslParam_fst`: a request is filled exactly by the parameters that fit;
* `presenceReported_iff`: the sender can tell the requests that were answered only if all were.
-/

namespace OpenSSLWasm.Provider

/-! ## Requests and parameters -/

/-- The data types of an `OSSL_PARAM`. -/
inductive DataType
  | integer
  | unsignedInteger
  | real
  | utf8String
  | octetString
  | utf8Ptr
  | octetPtr
  deriving DecidableEq, Repr

/-- Where the value goes: `p->data` and `p->data_size`. -/
inductive Buffer
  | null (size : ℕ)
  | mem (bytes : List Byte)
  deriving DecidableEq, Repr

namespace Buffer

def size : Buffer → ℕ
  | null n => n
  | mem bytes => bytes.length

def isNull : Buffer → Bool
  | null _ => true
  | mem _ => false

/-- Write to the start of the buffer. Without a buffer the bytes go to the start of the memory. -/
def store (value : List Byte) : Buffer → Buffer
  | null n => null n
  | mem bytes => mem (value ++ bytes.drop value.length)

end Buffer

/-- An `OSSL_PARAM` of a request; the key is the bytes of a C string. -/
structure OsslParam where
  key : List Byte
  dataType : DataType
  data : Buffer
  returnSize : ℕ
  deriving DecidableEq, Repr

/-- `OSSL_PARAM_UNMODIFIED`, which is `(size_t)-1`. -/
def osslParamUnmodified : ℕ := 2 ^ 32 - 1

/-- `OSSL_PARAM_modified`. -/
def OsslParam.Modified (p : OsslParam) : Prop := p.returnSize ≠ osslParamUnmodified

instance (p : OsslParam) : Decidable p.Modified := inferInstanceAs (Decidable (_ ≠ _))

/-- `ossl-param-value`; the numbers are their bits. -/
inductive WitValue
  | integer (v : BitVec 64)
  | unsignedInteger (v : BitVec 64)
  | real (v : BitVec 64)
  | utf8String (s : List Byte)
  | octetString (b : List Byte)
  | bigInt (b : List Byte)
  | boolean (b : Bool)
  | size (v : BitVec 64)
  | unknown (b : List Byte)
  deriving DecidableEq, Repr

/-- The bytes that a string or a list takes. -/
def WitValue.extent : WitValue → ℕ
  | utf8String s => s.length
  | octetString b => b.length
  | bigInt b => b.length
  | unknown b => b.length
  | _ => 0

/-- `ossl-param`. The value is not all there is in a memory of `2 ^ 32` bytes. -/
structure WitParam where
  key : List Byte
  value : WitValue
  extent_lt : value.extent < 2 ^ 32 - 1

/-! ## Filling the requests -/

/-- The `n` low bytes of a number, the lowest first. -/
def leBytes (n : ℕ) (v : BitVec 64) : List Byte :=
  (List.range n).map fun i => v.extractLsb' (8 * i) 8

/-- `set_string_internal` in OpenSSL: the size is written first, and kept where the string is
refused. -/
def setStringInternal (type : DataType) (val : List Byte) (p : OsslParam) : Bool × OsslParam :=
  match p.data with
  | .null _ => (true, { p with returnSize := val.length })
  | .mem bytes =>
    -- the size is reported even where the type is wrong or the buffer too small
    if p.dataType ≠ type then (false, { p with returnSize := val.length })
    else if bytes.length < val.length then (false, { p with returnSize := val.length })
    else
      let nul := if type = .utf8String ∧ val.length < bytes.length then [0] else []
      (true, { p with data := p.data.store (val ++ nul), returnSize := val.length })

/-- `OSSL_PARAM_set_utf8_string`, which takes a C string. -/
def setUtf8String (val : List Byte) : OsslParam → Bool × OsslParam :=
  setStringInternal .utf8String (cString val)

/-- `OSSL_PARAM_set_octet_string`. -/
def setOctetString (val : List Byte) : OsslParam → Bool × OsslParam :=
  setStringInternal .octetString val

/-- The integer cases, which do the same: whatever width the request has, if it is that of an `int`
or an `int64_t`. -/
def storeInteger (v : BitVec 64) (p : OsslParam) : Bool × OsslParam :=
  if p.dataType = .unsignedInteger ∨ p.dataType = .integer then
    if p.data.size = 4 then
      (true, { p with data := p.data.store (leBytes 4 v), returnSize := 4 })
    else if p.data.size = 8 then
      (true, { p with data := p.data.store (leBytes 8 v), returnSize := 8 })
    else (false, p)
  else (false, p)

/-- The string case, with a copy on the stack that is cut to 255 bytes. -/
def storeUtf8String (s : List Byte) (p : OsslParam) : Bool × OsslParam :=
  let tmp := s.take 255
  match setUtf8String tmp p with
  | (true, p') => (true, p')
  | (false, p') =>
    if p'.dataType = .utf8String ∧ p'.data.isNull = false ∧ tmp.length + 1 ≤ p'.data.size then
      (true, { p' with data := p'.data.store (tmp ++ [0]), returnSize := tmp.length })
    else (false, p')

def fillOneOsslParam (p : OsslParam) (witp : WitParam) : Bool × OsslParam :=
  if witp.key.length = 0 then (false, p)
  else if p.key.length ≠ witp.key.length then (false, p)
  else if p.key ≠ witp.key then (false, p)
  else
    match witp.value with
    | .utf8String s => storeUtf8String s p
    | .octetString b => setOctetString b p
    | .unsignedInteger v => storeInteger v p
    | .integer v => storeInteger v p
    | _ => (false, p)

/-- The inner loop: the first parameter that fills the request. -/
def fillFrom (p : OsslParam) : List WitParam → Bool × OsslParam
  | [] => (false, p)
  | w :: ws =>
    match fillOneOsslParam p w with
    | (true, p') => (true, p')
    | (false, p') => fillFrom p' ws

/-- The body of the outer loop. -/
def fillRequest (witOut : List WitParam) (p : OsslParam) : OsslParam :=
  match fillFrom p witOut with
  | (true, p') => p'
  -- 0 is not the mark for a request that was left alone
  | (false, p') => { p' with returnSize := 0 }

/-- `witOut` is the answer of the provider to the question for everything. -/
def witKeymgmtGetParams (witOut : Option (List WitParam)) (params : List OsslParam) :
    Bool × List OsslParam :=
  match witOut with
  | none => (false, params)
  | some witOut => (true, params.map (fillRequest witOut))

/-! ## The requests that are answered -/

/-- A value can be stored for a request. -/
def WitValue.fits (v : WitValue) (p : OsslParam) : Bool :=
  match v with
  | .utf8String s =>
    p.data.isNull || (p.dataType = .utf8String && (cString (s.take 255)).length ≤ p.data.size)
  | .octetString b => p.data.isNull || (p.dataType = .octetString && b.length ≤ p.data.size)
  | .integer _ | .unsignedInteger _ =>
    (p.dataType = .integer || p.dataType = .unsignedInteger) &&
      (p.data.size = 4 || p.data.size = 8)
  | _ => false

/-- The parameter has the key of the request, and its value can be stored there. -/
def WitParam.fits (w : WitParam) (p : OsslParam) : Bool :=
  w.key ≠ [] && w.key = p.key && w.value.fits p

/-- `q` is the request `p`, but for the size that it reports. -/
def SameRequest (p q : OsslParam) : Prop :=
  q.key = p.key ∧ q.dataType = p.dataType ∧ q.data = p.data

theorem WitParam.fits_congr (w : WitParam) {p q : OsslParam} (h : SameRequest p q) :
    w.fits q = w.fits p := by
  obtain ⟨hkey, htype, hdata⟩ := h
  simp only [fits, WitValue.fits, hkey, htype, hdata]

/-- What filling a request with a value does, if the value is stored exactly where `fits` says: the
size is one, and a request that is not filled stays what it was. -/
def FillSpec (fits : Bool) (p : OsslParam) (r : Bool × OsslParam) : Prop :=
  r.1 = fits ∧ (r.1 = true → r.2.returnSize < 2 ^ 32 - 1) ∧ (r.1 = false → SameRequest p r.2)

theorem FillSpec.refused (p : OsslParam) : FillSpec false p (false, p) :=
  ⟨rfl, ⟨fun h => (Bool.false_ne_true h).elim, fun _ => ⟨rfl, rfl, rfl⟩⟩⟩

theorem setStringInternal_spec (type : DataType) {val : List Byte} (hval : val.length < 2 ^ 32 - 1)
    (p : OsslParam) :
    FillSpec (p.data.isNull || (p.dataType = type && val.length ≤ p.data.size)) p
      (setStringInternal type val p) := by
  rcases hdata : p.data with n | bytes
  · simpa [FillSpec, setStringInternal, hdata, Buffer.isNull] using hval
  · by_cases htype : p.dataType = type
    · by_cases hsize : bytes.length < val.length
      · simp [FillSpec, setStringInternal, hdata, Buffer.isNull, Buffer.size, htype, hsize,
          Nat.not_le.mpr hsize, SameRequest]
      · simpa [FillSpec, setStringInternal, hdata, Buffer.isNull, Buffer.size, htype, hsize,
          Nat.not_lt.mp hsize] using hval
    · simp [FillSpec, setStringInternal, hdata, Buffer.isNull, htype, SameRequest]

theorem storeInteger_spec (v : BitVec 64) (p : OsslParam) :
    FillSpec ((p.dataType = .integer || p.dataType = .unsignedInteger) &&
      (p.data.size = 4 || p.data.size = 8)) p (storeInteger v p) := by
  rw [storeInteger]
  by_cases htype : p.dataType = .unsignedInteger ∨ p.dataType = .integer
  · rw [if_pos htype]
    by_cases h4 : p.data.size = 4
    · simp [FillSpec, h4, htype.symm]
    · by_cases h8 : p.data.size = 8
      · simp [FillSpec, h8, htype.symm]
      · simp [FillSpec, h4, h8, SameRequest]
  · rw [if_neg htype]
    rw [not_or] at htype
    simp [FillSpec, htype.1, htype.2, SameRequest]

/-- A string is stored by `OSSL_PARAM_set_utf8_string`, or not at all. -/
theorem storeUtf8String_eq (s : List Byte) (p : OsslParam) :
    storeUtf8String s p = setUtf8String (s.take 255) p := by
  have hle := length_cString_le (s.take 255)
  have hlt : (cString (s.take 255)).length < 2 ^ 32 - 1 := by
    rw [List.length_take] at hle
    omega
  obtain ⟨hfits, -, hsame⟩ := setStringInternal_spec .utf8String hlt p
  rw [storeUtf8String]
  rcases hset : setUtf8String (s.take 255) p with ⟨_ | _, p'⟩
  · rw [← setUtf8String, hset] at hfits hsame
    obtain ⟨-, htype, hdata⟩ := hsame rfl
    -- what fits with its NUL would have been set
    refine if_neg ?_
    rintro ⟨ht, hn, hl⟩
    rw [hdata] at hn hl
    rw [htype] at ht
    simp [hn, ht] at hfits
    omega
  · rfl

theorem fillOneOsslParam_spec (p : OsslParam) (w : WitParam) :
    FillSpec (w.fits p) p (fillOneOsslParam p w) := by
  -- a parameter without a key, or for another one, is passed over
  by_cases hkey : w.key = []
  · simpa [fillOneOsslParam, WitParam.fits, hkey] using FillSpec.refused p
  by_cases hp : w.key = p.key
  swap
  · simpa [fillOneOsslParam, WitParam.fits, hkey, hp, Ne.symm hp] using FillSpec.refused p
  have hfill : fillOneOsslParam p w = match w.value with
      | .utf8String s => setUtf8String (s.take 255) p
      | .octetString b => setOctetString b p
      | .unsignedInteger v => storeInteger v p
      | .integer v => storeInteger v p
      | _ => (false, p) := by
    rw [fillOneOsslParam, if_neg (by simpa using hkey), if_neg (by simp [hp]),
      if_neg (by simp [hp])]
    simp only [storeUtf8String_eq]
  have hfits : w.fits p = w.value.fits p := by
    rw [WitParam.fits, decide_eq_true hkey, decide_eq_true hp]
    rfl
  have hext := w.extent_lt
  rw [hfill, hfits]
  cases hv : w.value with
  | utf8String s =>
    refine setStringInternal_spec .utf8String ?_ p
    have := length_cString_le (s.take 255)
    rw [List.length_take] at this
    omega
  | octetString b =>
    rw [hv] at hext
    exact setStringInternal_spec .octetString hext p
  | unsignedInteger v => exact storeInteger_spec v p
  | integer v => exact storeInteger_spec v p
  | real | bigInt | boolean | size | unknown => exact FillSpec.refused p

/-! ## Which requests are modified -/

/-- The inner loop fills a request exactly if some parameter fits. -/
theorem fillFrom_spec (p : OsslParam) (ws : List WitParam) :
    FillSpec (ws.any (·.fits p)) p (fillFrom p ws) := by
  induction ws generalizing p with
  | nil => exact FillSpec.refused p
  | cons w ws ih =>
    have hone := fillOneOsslParam_spec p w
    rw [fillFrom, List.any_cons]
    rcases hw : fillOneOsslParam p w with ⟨_ | _, p'⟩
    · -- the request that goes on to the next parameter is the same
      rw [hw] at hone
      obtain ⟨hfits, -, hsame⟩ := hone
      have hsame := hsame rfl
      obtain ⟨hrest, hsize, hrefused⟩ := ih p'
      have hany : ws.any (·.fits p') = ws.any (·.fits p) :=
        congrArg ws.any (funext fun w => w.fits_congr hsame)
      rw [hany] at hrest
      rw [← hfits, Bool.false_or]
      refine ⟨hrest, hsize, fun h => ?_⟩
      obtain ⟨hkey, htype, hdata⟩ := hrefused h
      exact ⟨hkey.trans hsame.1, htype.trans hsame.2.1, hdata.trans hsame.2.2⟩
    · rw [hw] at hone
      obtain ⟨hfits, hsize, hrefused⟩ := hone
      rw [← hfits, Bool.true_or]
      exact ⟨rfl, hsize, hrefused⟩

/-- Every request ends with a size: that of the value, or 0. -/
theorem modified_fillRequest (witOut : List WitParam) (p : OsslParam) :
    (fillRequest witOut p).Modified := by
  obtain ⟨-, hsize, -⟩ := fillFrom_spec p witOut
  rw [fillRequest, OsslParam.Modified, osslParamUnmodified]
  rcases hfill : fillFrom p witOut with ⟨_ | _, p'⟩
  · show (0 : ℕ) ≠ _
    omega
  · rw [hfill] at hsize
    exact (hsize rfl).ne

/-- After a successful call, a request is modified exactly if the provider had a parameter for its
key that was stored. -/
def PresenceReported (witOut : Option (List WitParam)) (params : List OsslParam) : Prop :=
  (witKeymgmtGetParams witOut params).1 = true →
    List.Forall₂ (fun p q => q.Modified ↔ ∃ ws ∈ witOut, ∃ w ∈ ws, w.fits p = true) params
      (witKeymgmtGetParams witOut params).2

/-- The requests that were answered can be told from the others only if there are no others: what
has no answer is marked as having one of size 0. -/
theorem presenceReported_iff (witOut : Option (List WitParam)) (params : List OsslParam) :
    PresenceReported witOut params ↔
      ∀ ws ∈ witOut, ∀ p ∈ params, ∃ w ∈ ws, w.fits p = true := by
  cases witOut with
  | none =>
    refine iff_of_true (fun h => ?_) (by simp)
    cases h
  | some ws =>
    rw [PresenceReported, witKeymgmtGetParams, List.forall₂_map_right_iff, List.forall₂_same]
    simp [modified_fillRequest]

/-- The request `priv` of `EVP_PKEY_get_bn_param`, made to a public key of which the provider tells
the size only. -/
theorem not_presenceReported_priv :
    ¬PresenceReported (some [⟨[98, 105, 116, 115], .unsignedInteger 256, by decide⟩])
      [⟨[112, 114, 105, 118], .unsignedInteger, .mem (List.replicate 2048 0),
        osslParamUnmodified⟩] := by
  intro h
  obtain ⟨hiff, -⟩ := List.forall₂_cons.mp (h rfl)
  obtain ⟨ws, hws, w, hw, hfits⟩ := hiff.mp (by decide)
  obtain rfl := Option.some.inj hws
  obtain rfl := List.mem_singleton.mp hw
  exact absurd hfits (by decide)

end OpenSSLWasm.Provider
