import OpenSSLWasm.Lib.Slots
import OpenSSLWasm.Provider.Selection

/-!
# Keys that are exported and imported

A key is exported by handing OpenSSL an array of `OSSL_PARAM` for every list of parameters that the
provider behind the bridge gives. When such an array comes back, in an import or with a key to be
encoded, it is made into a list for the provider again. In `src/provider_wit.c` the array is written
with a running index into memory for as many entries as there are parameters, and the list with one
pass that counts and one that fills.

## Main definitions

* `buildExport`: the array for a list of parameters, written entry by entry;
* `exportLoop`: the loop of `wit_keymgmt_export` over the lists;
* `readParams`: the entries of an array, up to its end;
* `countStrings` and `fillStrings`: the two passes of `build_wit_params_full`;
* `RoundTrips`: an array has room for its entries, and stands for the strings among the parameters.

## Main results

* `fillStrings_countStrings`: the pass that fills writes as many entries as were counted;
* `exports_roundTrip`: every array that is handed over can be made into a list again.
-/

namespace OpenSSLWasm.Provider

open Slots

/-! ## Arrays of parameters -/

/-- What is in memory for an array of `OSSL_PARAM`, of which some entries may be unwritten. The entry
that ends an array, whose key is NULL, is `none`. -/
abbrev ParamArray := List (Option (Option OsslParam))

/-- `for (p = params; p->key != NULL; p++)`; there is nothing if an entry is not written, or past
the array. -/
def readParams : ParamArray → Option (List OsslParam)
  | some (some p) :: rest => (readParams rest).map (p :: ·)
  | some none :: _ => some []
  | none :: _ => none
  | [] => none

/-- `OSSL_PARAM_construct_octet_string`. -/
def constructOctetString (key buf : List Byte) (bsize : ℕ) : OsslParam where
  key := key
  dataType := .octetString
  data := .mem (buf.take bsize)
  returnSize := osslParamUnmodified

/-- `OSSL_PARAM_construct_utf8_string`, which measures the string itself if the size is 0. -/
def constructUtf8String (key buf : List Byte) (bsize : ℕ) : OsslParam where
  key := key
  dataType := .utf8String
  data := .mem (buf.take (if bsize = 0 then (cString buf).length else bsize))
  returnSize := osslParamUnmodified

/-- `OSSL_PARAM_construct_uint64` and `OSSL_PARAM_construct_int64`. -/
def constructNumber (type : DataType) (key : List Byte) (v : BitVec 64) : OsslParam where
  key := key
  dataType := type
  data := .mem (leBytes 8 v)
  returnSize := osslParamUnmodified

/-! ## Export -/

/-- Whether there is memory of so many bytes. -/
abbrev Memory := ℕ → Bool

/-- The entry that `emit_ossl_param_to_cb` writes for a parameter, if it writes one. A NUL is put
behind the key in place. -/
def emitted (mem : Memory) (p : WitParam) : Option OsslParam :=
  let keyC := cString (p.key ++ [0])
  match p.value with
  | .octetString b => some (constructOctetString keyC b b.length)
  | .utf8String s =>
    -- the copy is in new memory, which is all zeros and has slack behind it
    if mem (s.length + 1 + 4096) then
      let fresh := s ++ List.replicate (4096 + 1) 0
      some (constructUtf8String keyC fresh s.length)
    else none
  | .unsignedInteger v => some (constructNumber .unsignedInteger keyC v)
  | .integer v => some (constructNumber .integer keyC v)
  | _ => none

/-- An array with room for the parameters and the end. There is nothing if a write goes past it. -/
def buildExport (mem : Memory) (inner : List WitParam) : Option ParamArray := do
  let bld ← (GrowArray.ofCap (inner.length + 1)).putEach (fun p => (emitted mem p).map some) inner
  let bld ← bld.put none
  some bld.slots

/-- `sizeof(OSSL_PARAM)`. A parameter of the provider takes 24 bytes in its list, so that the size of
the array is one that a memory of `2 ^ 32` bytes can have. -/
def sizeofOsslParam : ℕ := 20

/-- The loop of `wit_keymgmt_export`: what it returns, and the arrays that `param_cb` is given. -/
def exportLoop (mem : Memory) (paramCb : ParamArray → Bool) :
    List (List WitParam) → Option (Bool × List ParamArray)
  | [] => some (true, [])
  | inner :: rest =>
    if mem (sizeofOsslParam * (inner.length + 1)) then do
      let bld ← buildExport mem inner
      let (success, arrays) ← exportLoop mem paramCb rest
      some (paramCb bld && success, bld :: arrays)
    else some (false, [])

/-! ## Import -/

/-- The entry is counted. -/
def OsslParam.isString (p : OsslParam) : Bool :=
  p.dataType = .utf8String || p.dataType = .octetString

/-- The first pass of `build_wit_params_full`. -/
def countStrings (params : List OsslParam) : ℕ := params.countP OsslParam.isString

/-- `p->data_size` bytes at `p->data`, which may be NULL: `low` is the memory there. -/
def Buffer.read (low : Ptr) : Buffer → List Byte
  | null n => readBytes low n
  | mem bytes => bytes

/-- What the second pass writes for an entry. -/
def copied (low : Ptr) (p : OsslParam) : Option SignParam :=
  if p.dataType ≠ .utf8String ∧ p.dataType ≠ .octetString then none
  else
    some {
      key := p.key
      value := if p.dataType = .utf8String then .utf8String (p.data.read low)
        else .octetString (p.data.read low) }

/-- The second pass: `out` with its `len`, in memory for so many entries. -/
def fillStrings (low : Ptr) (params : List OsslParam) (count : ℕ) : Option (GrowArray SignParam) :=
  (GrowArray.ofCap count).putEach (copied low) params

/-- `build_wit_params_full` with its two passes. There is nothing if a write goes past the memory. -/
def buildWitParamsInTwo (low : Ptr) (params : Option (List OsslParam)) : Option (List SignParam) :=
  match params with
  | none => some []
  | some params =>
    let count := countStrings params
    if count = 0 then some []
    else (fillStrings low params count).bind GrowArray.elements

/-! ## What should come back -/

/-- The parameter is a string or an octet string. -/
def WitParam.isString (w : WitParam) : Bool :=
  match w.value with
  | .utf8String _ | .octetString _ => true
  | _ => false

/-- The strings and octet strings among the parameters, in order. -/
def stringParams (ws : List WitParam) : List SignParam :=
  (ws.filter WitParam.isString).map fun w => ⟨w.key, w.value⟩

/-- The array for a list of parameters has an entry for each at most, and one for the end. As a list
again it has the strings of that list. -/
structure RoundTrips (low : Ptr) (ws : List WitParam) (array : ParamArray) : Prop where
  room : array.length = ws.length + 1
  entries : ∃ params, readParams array = some params ∧ params.length ≤ ws.length ∧
    buildWitParamsInTwo low (some params) = some (stringParams ws)

/-! ## The two passes -/

theorem copied_isSome (low : Ptr) (p : OsslParam) : (copied low p).isSome = p.isString := by
  rcases p with ⟨key, type, data, n⟩
  cases type <;> rfl

/-- An entry is counted exactly if it is written. -/
theorem length_filterMap_copied (low : Ptr) (params : List OsslParam) :
    (params.filterMap (copied low)).length = countStrings params := by
  rw [countStrings]
  induction params with
  | nil => rfl
  | cons p params ih =>
    have hone := copied_isSome low p
    rcases hp : copied low p with _ | w
    · rw [hp] at hone
      rw [List.filterMap_cons_none hp, List.countP_cons_of_neg (by simp [← hone]), ih]
    · rw [hp] at hone
      rw [List.filterMap_cons_some hp, List.countP_cons_of_pos hone.symm, List.length_cons, ih]

/-- The pass that fills writes as many entries as were counted, all of them within the memory. -/
theorem fillStrings_countStrings (low : Ptr) (params : List OsslParam) :
    ∃ out, fillStrings low params (countStrings params) = some out ∧
      out.Holds (params.filterMap (copied low)) ∧ out.len = countStrings params := by
  have hroom : ([] : List SignParam).length + (params.filterMap (copied low)).length ≤
      (GrowArray.ofCap (countStrings params) : GrowArray SignParam).cap := by
    rw [length_filterMap_copied, List.length_nil, Nat.zero_add]
    exact le_rfl
  obtain ⟨out, hfill, hholds, -⟩ := (GrowArray.holds_ofCap (countStrings params)).putEach hroom
  refine ⟨out, hfill, by simpa using hholds, ?_⟩
  rw [hholds.len, List.nil_append, length_filterMap_copied]

theorem buildWitParamsInTwo_some (low : Ptr) (params : List OsslParam) :
    buildWitParamsInTwo low (some params) = some (params.filterMap (copied low)) := by
  obtain ⟨out, hfill, hholds, -⟩ := fillStrings_countStrings low params
  simp only [buildWitParamsInTwo]
  by_cases hcount : countStrings params = 0
  · -- nothing is written either
    rw [if_pos hcount]
    rw [← length_filterMap_copied low, List.length_eq_zero_iff] at hcount
    rw [hcount]
  · rw [if_neg hcount, hfill, Option.bind_some, hholds.elements]

/-- Without NULL among the strings, the two passes do what one pass would. -/
theorem buildWitParamsInTwo_eq (low : Ptr) {params : List OsslParam}
    (h : ∀ p ∈ params, p.data.isNull = false) :
    buildWitParamsInTwo low (some params) = some (buildWitParamsFull (some params)) := by
  rw [buildWitParamsInTwo_some, buildWitParamsFull, Option.getD_some]
  congr 1
  refine List.filterMap_congr fun p hp => ?_
  have hnull := h p hp
  obtain ⟨key, type, _ | bytes, n⟩ := p
  · cases hnull
  · cases type <;> rfl

/-! ## Round trips -/

theorem readParams_append_end (params : List OsslParam) (behind : ParamArray) :
    readParams (params.map (fun p => some (some p)) ++ some none :: behind) = some params := by
  induction params with
  | nil => rfl
  | cons p params ih => rw [List.map_cons, List.cons_append, readParams, ih, Option.map_some]

/-- The size of a string whose copy is followed by zeros is right, also where it is measured. -/
theorem constructUtf8String_zeros (key s : List Byte) (n : ℕ) :
    constructUtf8String key (s ++ List.replicate (n + 1) 0) s.length =
      ⟨key, .utf8String, .mem s, osslParamUnmodified⟩ := by
  have hmeasured : (if s.length = 0 then (cString (s ++ List.replicate (n + 1) 0)).length
      else s.length) = s.length := by
    split_ifs with h0
    · obtain rfl := List.length_eq_zero_iff.mp h0
      rfl
    · rfl
  rw [constructUtf8String, hmeasured, List.take_left]

section

variable {mem : Memory} (hmem : ∀ n, mem n = true)

/-- Every write is within the array, and the array has the entries up to its end. -/
theorem buildExport_eq_some (mem : Memory) (inner : List WitParam) :
    ∃ array, buildExport mem inner = some array ∧ array.length = inner.length + 1 ∧
      readParams array = some (inner.filterMap (emitted mem)) := by
  have hlen := List.length_filterMap_le (emitted mem) inner
  have hmap : inner.filterMap (fun p => (emitted mem p).map some) =
      (inner.filterMap (emitted mem)).map some := by
    rw [List.map_filterMap]
  have hroom : ([] : List (Option OsslParam)).length +
      (inner.filterMap fun p => (emitted mem p).map some).length ≤
        (GrowArray.ofCap (inner.length + 1) : GrowArray (Option OsslParam)).cap := by
    rw [hmap, List.length_map, List.length_nil, Nat.zero_add]
    exact Nat.le_succ_of_le hlen
  obtain ⟨bld, hbld, hholds, hcap⟩ := (GrowArray.holds_ofCap (inner.length + 1)).putEach hroom
  rw [List.nil_append, hmap] at hholds
  -- there is room for the end as well
  have hlt : bld.len < bld.cap := by
    rw [hholds.len, List.length_map, hcap]
    exact Nat.lt_succ_of_le hlen
  obtain ⟨bld', hput, hend, hcap'⟩ := hholds.put hlt none
  obtain ⟨behind, hslots⟩ := hend.slots
  refine ⟨bld'.slots, ?_, ?_, ?_⟩
  · rw [buildExport, hbld, Option.bind_eq_bind, Option.bind_some, hput, Option.bind_some]
  · rw [← hend.cap, hcap', hcap]
    rfl
  · rw [hslots, ← readParams_append_end (inner.filterMap (emitted mem)) behind]
    simp only [List.map_append, List.map_map, List.map_singleton, List.append_assoc,
      List.singleton_append]
    rfl

include hmem

/-- A parameter whose entry is copied is a string, and the copy has its key and its bytes. -/
theorem bind_emitted_copied (low : Ptr) {w : WitParam} (hkey : 0 ∉ w.key) :
    (emitted mem w).bind (copied low) = if w.isString then some ⟨w.key, w.value⟩ else none := by
  obtain ⟨key, value, hext⟩ := w
  have hkeyC : cString (key ++ [0]) = key := by
    rw [cString_append_nul, cString_of_not_mem hkey]
  simp only [emitted, hkeyC]
  cases value with
  | utf8String s =>
    simp only [if_pos (hmem _), constructUtf8String_zeros, Option.bind_some]
    rfl
  | octetString b =>
    simp only [constructOctetString, List.take_length, Option.bind_some]
    rfl
  | integer | unsignedInteger | real | bigInt | boolean | size | unknown => rfl

theorem filterMap_emitted_copied (low : Ptr) {ws : List WitParam} (hkeys : ∀ w ∈ ws, 0 ∉ w.key) :
    (ws.filterMap (emitted mem)).filterMap (copied low) = stringParams ws := by
  rw [List.filterMap_filterMap, stringParams]
  induction ws with
  | nil => rfl
  | cons w ws ih =>
    have hone := bind_emitted_copied hmem low (hkeys w List.mem_cons_self)
    have hrest := ih fun w hw => hkeys w (List.mem_cons_of_mem _ hw)
    by_cases hw : w.isString
    · rw [if_pos hw] at hone
      rw [List.filterMap_cons, List.filter_cons_of_pos hw, List.map_cons, hrest]
      simp only [hone]
    · rw [if_neg hw] at hone
      rw [List.filterMap_cons, List.filter_cons_of_neg hw, hrest]
      simp only [hone]

theorem roundTrips_buildExport (low : Ptr) {ws : List WitParam} (hkeys : ∀ w ∈ ws, 0 ∉ w.key) :
    ∃ array, buildExport mem ws = some array ∧ RoundTrips low ws array := by
  obtain ⟨array, hbuild, hlen, hread⟩ := buildExport_eq_some mem ws
  refine ⟨array, hbuild, hlen, _, hread, List.length_filterMap_le _ _, ?_⟩
  rw [buildWitParamsInTwo_some, filterMap_emitted_copied hmem low hkeys]

/-- The loop hands over an array for each list, in order. -/
theorem forall₂_exportLoop (low : Ptr) (paramCb : ParamArray → Bool) {lists : List (List WitParam)}
    (hkeys : ∀ ws ∈ lists, ∀ w ∈ ws, 0 ∉ w.key) :
    ∃ success arrays, exportLoop mem paramCb lists = some (success, arrays) ∧
      List.Forall₂ (RoundTrips low) lists arrays := by
  induction lists with
  | nil => exact ⟨true, [], rfl, .nil⟩
  | cons ws lists ih =>
    obtain ⟨array, hbuild, hone⟩ := roundTrips_buildExport hmem low (hkeys ws List.mem_cons_self)
    obtain ⟨success, arrays, hloop, hrest⟩ :=
      ih fun ws hws => hkeys ws (List.mem_cons_of_mem _ hws)
    refine ⟨paramCb array && success, array :: arrays, ?_, .cons hone hrest⟩
    rw [exportLoop, if_pos (hmem _), hbuild, hloop]
    rfl

/-- Every array that an export hands over can be made into a list again, with the strings of the
list that it comes from; and in every array as many entries are counted as are written. -/
theorem exports_roundTrip (low : Ptr) (paramCb : ParamArray → Bool) {lists : List (List WitParam)}
    (hkeys : ∀ ws ∈ lists, ∀ w ∈ ws, 0 ∉ w.key) :
    (∃ success arrays, exportLoop mem paramCb lists = some (success, arrays) ∧
      List.Forall₂ (RoundTrips low) lists arrays) ∧
      ∀ params, ∃ out, fillStrings low params (countStrings params) = some out ∧
        out.len = countStrings params := by
  refine ⟨forall₂_exportLoop hmem low paramCb hkeys, fun params => ?_⟩
  obtain ⟨out, hfill, -, hlen⟩ := fillStrings_countStrings low params
  exact ⟨out, hfill, hlen⟩

end

/-- A key that is exported with an empty name, a number and the octets of its public key. -/
def smallExport : List WitParam :=
  [⟨ascii "group", .utf8String [], by decide⟩, ⟨ascii "bits", .unsignedInteger 256, by decide⟩,
    ⟨ascii "pub", .octetString [4, 0, 1], by decide⟩]

theorem exports_roundTrip_smallExport :
    (∃ success arrays, exportLoop (fun _ => true) (fun _ => true) [smallExport] =
        some (success, arrays) ∧ List.Forall₂ (RoundTrips fun _ => 0) [smallExport] arrays) ∧
      ∀ params, ∃ out, fillStrings (fun _ => 0) params (countStrings params) = some out ∧
        out.len = countStrings params :=
  exports_roundTrip (fun _ => rfl) _ _ (by decide)

end OpenSSLWasm.Provider
