import OpenSSLWasm.Lib.Endian
import OpenSSLWasm.Provider.SignatureParams

/-!
# Values of filled requests

The sender of an `OSSL_PARAM` request reads what it was filled with in the data type that the request
has. A parameter of the provider behind the bridge can have any number of 64 bits and strings of any
length, and the request may be of another type or width.

## Main definitions

* `Content`, `WitValue.content?` and `OsslParam.readBack`: what a value stands for, and what is read;
* `FillsExactly`: a request that is filled reads back as the value, and one that is not keeps its
  data;
* `WitValue.Representable`: the request has room for the value, not only for some of it.

## Main results

* `readBack_storeInteger_iff`: which numbers can be read back;
* `fillsExactly_iff`: exactly the representable values are filled in as they are;
* `conveys_witKeymgmtGetParams`: what is then read of a whole array.
-/

namespace OpenSSLWasm.Provider

open Endian

/-! ## Contents -/

/-- What a value stands for. -/
inductive Content
  | number (z : ℤ)
  | text (s : List Byte)
  | octets (b : List Byte)
  deriving DecidableEq, Repr

/-- The kinds of value that a request can be filled with. -/
def WitValue.content? : WitValue → Option Content
  | integer v => some (.number v.toInt)
  | unsignedInteger v => some (.number v.toNat)
  | utf8String s => some (.text s)
  | octetString b => some (.octets b)
  | _ => none

/-- What is read from a request. A number is as wide as the buffer, a string ends with a NUL or with
the buffer, and of octets there are as many as were reported. -/
def OsslParam.readBack (p : OsslParam) : Option Content :=
  match p.dataType with
  | .integer => some (.number (leInt p.data.bytes))
  | .unsignedInteger => some (.number (leValue p.data.bytes))
  | .utf8String => some (.text (cString p.data.bytes))
  | .octetString => some (.octets (p.data.bytes.take p.returnSize))
  | _ => none

/-- The size that a value has in a buffer of so many bytes. -/
def WitValue.sizeIn (room : ℕ) : WitValue → ℕ
  | utf8String s => s.length
  | octetString b => b.length
  | _ => room

/-- What is read from the request is the value, and the size is that of the value. -/
def OsslParam.Conveys (p : OsslParam) (v : WitValue) : Prop :=
  (∃ c, v.content? = some c ∧ p.readBack = some c) ∧ p.returnSize = v.sizeIn p.data.size

/-- If the request is filled, what is read from it is the value; if not, its data stay as they were. -/
def FillsExactly (p : OsslParam) (w : WitParam) : Prop :=
  ((fillOneOsslParam p w).1 = true → (fillOneOsslParam p w).2.Conveys w.value) ∧
    ((fillOneOsslParam p w).1 = false → (fillOneOsslParam p w).2.data = p.data)

/-- A number that is one of so many bytes, with a sign if the type has one. -/
def NumberFits (z : ℤ) (type : DataType) (size : ℕ) : Prop :=
  if type = .integer then -2 ^ (8 * size - 1) ≤ z ∧ z < 2 ^ (8 * size - 1)
  else 0 ≤ z ∧ z < 2 ^ (8 * size)

/-- The value is one of the values of a type at this size. A string must be one of C, and of fewer
than 256 bytes, which is what the copy on the stack has room for. -/
def WitValue.Representable (v : WitValue) (type : DataType) (size : ℕ) : Prop :=
  match v with
  | integer v => NumberFits v.toInt type size
  | unsignedInteger v => NumberFits v.toNat type size
  | utf8String s => s.length < 256 ∧ 0 ∉ s
  | _ => True

instance (z : ℤ) (type : DataType) (size : ℕ) : Decidable (NumberFits z type size) := by
  unfold NumberFits
  infer_instance

/-! ## Numbers -/

theorem getElem_le (n v i : ℕ) (hi : i < (le n v).length) :
    (le n v)[i] = BitVec.ofNat 8 (v / 256 ^ i) := by
  induction n generalizing v i with
  | zero => cases hi
  | succ n ih =>
    rcases i with _ | i
    · simp [le]
    · have hi : i < (le n (v / 256)).length := by simpa [le] using hi
      simp only [le, List.getElem_cons_succ]
      rw [ih (v / 256) i hi, Nat.div_div_eq_div_mul, Nat.pow_succ']

theorem leBytes_eq_le (n : ℕ) (v : BitVec 64) : leBytes n v = le n v.toNat := by
  refine List.ext_getElem (by simp [leBytes]) fun i hi hi' => ?_
  rw [getElem_le]
  apply BitVec.eq_of_toNat_eq
  simp only [leBytes, List.getElem_map, List.getElem_range, BitVec.extractLsb'_toNat,
    BitVec.toNat_ofNat, Nat.shiftRight_eq_div_pow, Nat.pow_mul]

/-- The low bytes of 64 bits, read with a sign or without, are the number that the bits stand for
exactly if it is in the range of what is read. -/
theorem readBack_storeInteger_iff {v : BitVec 64} {z : ℤ} (hz : z = v.toInt ∨ z = v.toNat)
    {key bytes : List Byte} {type : DataType} (htype : type = .integer ∨ type = .unsignedInteger)
    (hsize : bytes.length = 4 ∨ bytes.length = 8) (n : ℕ) :
    (OsslParam.mk key type (.mem (leBytes bytes.length v)) n).readBack = some (.number z) ↔
      NumberFits z type bytes.length := by
  have hv := v.isLt
  have hmod : z % 2 ^ 64 = v.toNat := by
    rcases hz with rfl | rfl
    · rw [BitVec.toInt_eq_toNat_bmod, Int.bmod_def]
      omega
    · omega
  rcases htype with rfl | rfl
  · simp only [OsslParam.readBack, Buffer.bytes, leBytes_eq_le, leInt_le, Option.some.injEq,
      Content.number.injEq, NumberFits, if_true]
    rcases hsize with hsize | hsize
    · rw [hsize, Int.bmod_def]
      omega
    · rw [hsize, Int.bmod_def]
      omega
  · simp only [OsslParam.readBack, Buffer.bytes, leBytes_eq_le, leValue_le, Option.some.injEq,
      Content.number.injEq, NumberFits, reduceCtorEq, if_false]
    rcases hsize with hsize | hsize
    · rw [hsize]
      omega
    · rw [hsize]
      omega

/-! ## Requests that are filled -/

section

variable (key : List Byte) {type : DataType} {bytes : List Byte} (n : ℕ)

/-- A request that has the type and the width of a number gets its low bytes. -/
theorem storeInteger_of_fits (v : BitVec 64) (htype : type = .integer ∨ type = .unsignedInteger)
    (hsize : bytes.length = 4 ∨ bytes.length = 8) :
    (storeInteger v ⟨key, type, .mem bytes, n⟩).2 =
      ⟨key, type, .mem (leBytes bytes.length v), bytes.length⟩ := by
  have hlen : (leBytes bytes.length v).length = bytes.length := by simp [leBytes]
  have hstore : (Buffer.mem bytes).store (leBytes bytes.length v) =
      .mem (leBytes bytes.length v) := by
    rw [Buffer.store, hlen, List.drop_length, List.append_nil]
  rw [storeInteger, if_pos htype.symm]
  rcases hsize with hsize | hsize
  · rw [hsize] at hstore ⊢
    simp only [Buffer.size, hsize, if_true, hstore]
  · rw [hsize] at hstore ⊢
    simp only [Buffer.size, hsize, if_true, hstore]
    rfl

theorem conveys_storeInteger_iff {v : BitVec 64} {w : WitValue}
    (hw : w = .integer v ∨ w = .unsignedInteger v)
    (htype : type = .integer ∨ type = .unsignedInteger)
    (hsize : bytes.length = 4 ∨ bytes.length = 8) :
    (storeInteger v ⟨key, type, .mem bytes, n⟩).2.Conveys w ↔
      w.Representable type bytes.length := by
  have hlen : (leBytes bytes.length v).length = bytes.length := by simp [leBytes]
  rw [storeInteger_of_fits key n v htype hsize, OsslParam.Conveys]
  rcases hw with rfl | rfl
  · simp only [WitValue.content?, Option.some.injEq, WitValue.sizeIn, Buffer.size, hlen, and_true,
      exists_eq_left', WitValue.Representable]
    exact readBack_storeInteger_iff (Or.inl rfl) htype hsize _
  · simp only [WitValue.content?, Option.some.injEq, WitValue.sizeIn, Buffer.size, hlen, and_true,
      exists_eq_left', WitValue.Representable]
    exact readBack_storeInteger_iff (Or.inr rfl) htype hsize _

/-- A string that has room is stored at the start of the buffer. A C string ends with a NUL there, if
it does not take the whole buffer. -/
theorem setStringInternal_of_le (type : DataType) {val : List Byte}
    (hlen : val.length ≤ bytes.length) :
    ∃ rest, (setStringInternal type val ⟨key, type, .mem bytes, n⟩).2 =
        ⟨key, type, .mem (val ++ rest), val.length⟩ ∧
      (type = .utf8String → rest = [] ∨ ∃ rest', rest = 0 :: rest') := by
  simp only [setStringInternal, ne_eq, not_true_eq_false, if_false, if_neg (Nat.not_lt.mpr hlen),
    Buffer.store, List.append_assoc]
  refine ⟨_, rfl, fun htype => ?_⟩
  by_cases hlt : val.length < bytes.length
  · rw [if_pos ⟨htype, hlt⟩]
    exact Or.inr ⟨_, rfl⟩
  · rw [if_neg fun h => hlt h.2, List.nil_append, List.append_nil]
    exact Or.inl (List.drop_eq_nil_iff.mpr (by omega))

/-- The copy on the stack is the string exactly if that is a C string, and short. -/
theorem conveys_setUtf8String_iff {s : List Byte}
    (hlen : (cString (s.take 255)).length ≤ bytes.length) :
    (setUtf8String (s.take 255) ⟨key, .utf8String, .mem bytes, n⟩).2.Conveys (.utf8String s) ↔
      s.length < 256 ∧ 0 ∉ s := by
  obtain ⟨rest, hset, hrest⟩ := setStringInternal_of_le key n .utf8String hlen
  have hread : cString (cString (s.take 255) ++ rest) = cString (s.take 255) := by
    rcases hrest rfl with rfl | ⟨rest', rfl⟩
    · rw [List.append_nil, cString_of_not_mem (nul_notMem_cString _)]
    · rw [cString_append_nul_cons, cString_of_not_mem (nul_notMem_cString _)]
  rw [setUtf8String, hset, OsslParam.Conveys]
  simp only [WitValue.content?, OsslParam.readBack, Buffer.bytes, hread, WitValue.sizeIn,
    Option.some.injEq, exists_eq_left', Content.text.injEq]
  constructor
  · rintro ⟨heq, -⟩
    have hshort : s.length < 256 := by
      have hle := length_cString_le (s.take 255)
      rw [heq, List.length_take] at hle
      omega
    rw [List.take_of_length_le (by omega)] at heq
    exact ⟨hshort, cString_eq_self_iff.mp heq⟩
  · rintro ⟨hshort, hnul⟩
    rw [List.take_of_length_le (by omega), cString_of_not_mem hnul]
    exact ⟨rfl, rfl⟩

theorem conveys_setOctetString {b : List Byte} (hlen : b.length ≤ bytes.length) :
    (setOctetString b ⟨key, .octetString, .mem bytes, n⟩).2.Conveys (.octetString b) := by
  obtain ⟨rest, hset, -⟩ := setStringInternal_of_le key n .octetString hlen
  rw [setOctetString, hset]
  refine ⟨⟨.octets b, rfl, ?_⟩, rfl⟩
  rw [OsslParam.readBack, Buffer.bytes, List.take_left]

/-- A parameter that can be stored is read back as it is exactly if it is representable. -/
theorem conveys_fillOneOsslParam_iff {w : WitParam}
    (hfits : w.fits ⟨key, type, .mem bytes, n⟩ = true) :
    (fillOneOsslParam ⟨key, type, .mem bytes, n⟩ w).2.Conveys w.value ↔
      w.value.Representable type bytes.length := by
  obtain ⟨wkey, value, hext⟩ := w
  simp only [WitParam.fits, ne_eq, Bool.and_eq_true, decide_eq_true_eq] at hfits
  obtain ⟨⟨hkey, rfl⟩, hfits⟩ := hfits
  simp only [fillOneOsslParam, List.length_eq_zero_iff, if_neg hkey, ne_eq, not_true_eq_false,
    if_false]
  cases value with
  | utf8String s =>
    simp only [WitValue.fits, Buffer.isNull, Buffer.size, Bool.false_or, Bool.and_eq_true,
      decide_eq_true_eq] at hfits
    obtain ⟨rfl, hlen⟩ := hfits
    show (storeUtf8String s _).2.Conveys _ ↔ _
    rw [storeUtf8String_eq]
    exact conveys_setUtf8String_iff wkey n (of_decide_eq_true hlen)
  | octetString b =>
    simp only [WitValue.fits, Buffer.isNull, Buffer.size, Bool.false_or, Bool.and_eq_true,
      decide_eq_true_eq] at hfits
    obtain ⟨rfl, hlen⟩ := hfits
    exact iff_of_true (conveys_setOctetString wkey n (of_decide_eq_true hlen)) trivial
  | integer v =>
    simp only [WitValue.fits, Buffer.size, Bool.and_eq_true, Bool.or_eq_true] at hfits
    exact conveys_storeInteger_iff wkey n (Or.inl rfl) (hfits.1.imp of_decide_eq_true of_decide_eq_true)
      (hfits.2.imp of_decide_eq_true of_decide_eq_true)
  | unsignedInteger v =>
    simp only [WitValue.fits, Buffer.size, Bool.and_eq_true, Bool.or_eq_true] at hfits
    exact conveys_storeInteger_iff wkey n (Or.inr rfl) (hfits.1.imp of_decide_eq_true of_decide_eq_true)
      (hfits.2.imp of_decide_eq_true of_decide_eq_true)
  | real | bigInt | boolean | size | unknown => cases hfits

/-- What is stored and not representable is not read back. -/
theorem FillsExactly.representable {w : WitParam}
    (h : FillsExactly ⟨key, type, .mem bytes, n⟩ w)
    (hfits : w.fits ⟨key, type, .mem bytes, n⟩ = true) :
    w.value.Representable type bytes.length := by
  obtain ⟨hret, -, -⟩ := fillOneOsslParam_spec ⟨key, type, .mem bytes, n⟩ w
  exact (conveys_fillOneOsslParam_iff key n hfits).mp (h.1 (hret.trans hfits))

/-- What is representable, or cannot be stored, is filled in as it is or refused. -/
theorem FillsExactly.of_representable {w : WitParam}
    (h : w.fits ⟨key, type, .mem bytes, n⟩ = true → w.value.Representable type bytes.length) :
    FillsExactly ⟨key, type, .mem bytes, n⟩ w := by
  obtain ⟨hret, -, hsame⟩ := fillOneOsslParam_spec ⟨key, type, .mem bytes, n⟩ w
  refine ⟨fun htrue => ?_, fun hfalse => (hsame hfalse).2.2⟩
  have hfits := hret.symm.trans htrue
  exact (conveys_fillOneOsslParam_iff key n hfits).mpr (h hfits)

/-- A request with a buffer is filled with what a parameter is exactly if the parameter is
representable, or cannot be stored at all. -/
theorem fillsExactly_iff (type : DataType) (bytes : List Byte) (w : WitParam) :
    FillsExactly ⟨key, type, .mem bytes, n⟩ w ↔
      (w.fits ⟨key, type, .mem bytes, n⟩ = true → w.value.Representable type bytes.length) :=
  ⟨fun h hfits => h.representable key n hfits, FillsExactly.of_representable key n⟩

/-- A request that is not filled goes on to the next parameter with another size at most. -/
theorem eq_of_sameRequest {q : OsslParam} (h : SameRequest ⟨key, type, .mem bytes, n⟩ q) :
    q = ⟨key, type, .mem bytes, q.returnSize⟩ := by
  rcases q with ⟨qkey, qtype, qdata, qsize⟩
  obtain ⟨hkey, htype, hdata⟩ := h
  simp only at hkey htype hdata
  rw [hkey, htype, hdata]

/-- If every parameter fills the request exactly, so does the first that fills it. -/
theorem conveys_fillFrom {ws : List WitParam}
    (h : ∀ w ∈ ws, ∀ n, FillsExactly ⟨key, type, .mem bytes, n⟩ w)
    (hret : (fillFrom ⟨key, type, .mem bytes, n⟩ ws).1 = true) :
    ∃ w ∈ ws, w.key = key ∧ (fillFrom ⟨key, type, .mem bytes, n⟩ ws).2.Conveys w.value := by
  induction ws generalizing n with
  | nil => cases hret
  | cons w ws ih =>
    obtain ⟨hfits, -, hsame⟩ := fillOneOsslParam_spec ⟨key, type, .mem bytes, n⟩ w
    have hone := h w List.mem_cons_self n
    have hrest := fun w hw => h w (List.mem_cons_of_mem _ hw)
    rw [FillsExactly] at hone
    rw [fillFrom] at hret ⊢
    rcases hfill : fillOneOsslParam ⟨key, type, .mem bytes, n⟩ w with ⟨_ | _, q⟩
    · -- the request goes on to the next parameter
      rw [hfill] at hsame
      have hq : q = ⟨key, type, .mem bytes, q.returnSize⟩ := eq_of_sameRequest key n (hsame rfl)
      simp only [hfill] at hret ⊢
      rw [hq] at hret ⊢
      obtain ⟨w', hw', hkey, hconveys⟩ := ih _ hrest hret
      exact ⟨w', List.mem_cons_of_mem _ hw', hkey, hconveys⟩
    · rw [hfill] at hfits hone
      have hfits := hfits.symm
      simp only [WitParam.fits, ne_eq, Bool.and_eq_true, decide_eq_true_eq] at hfits
      exact ⟨w, List.mem_cons_self, hfits.1.2, hone.1 rfl⟩

end

/-- An array of requests with buffers whose parameters are all representable or cannot be stored: a
request has the value of a parameter with its key afterwards, or counts as empty. -/
theorem conveys_witKeymgmtGetParams {ws : List WitParam} {params : List OsslParam}
    (h : ∀ p ∈ params, p.data.isNull = false ∧ ∀ w ∈ ws, w.fits p = true →
      w.value.Representable p.dataType p.data.size) :
    List.Forall₂ (fun p q => (∃ w ∈ ws, w.key = p.key ∧ q.Conveys w.value) ∨ q.returnSize = 0)
      params (witKeymgmtGetParams (some ws) params).2 := by
  rw [witKeymgmtGetParams, List.forall₂_map_right_iff, List.forall₂_same]
  intro p hp
  obtain ⟨hnull, hrep⟩ := h p hp
  obtain ⟨key, type, _ | bytes, n⟩ := p
  · cases hnull
  rw [fillRequest]
  rcases hfill : fillFrom ⟨key, type, .mem bytes, n⟩ ws with ⟨_ | _, q⟩
  · exact Or.inr rfl
  · have hexact : ∀ w ∈ ws, ∀ m, FillsExactly ⟨key, type, .mem bytes, m⟩ w := by
      intro w hw m
      exact FillsExactly.of_representable key m fun hfits => hrep w hw hfits
    have hconveys := conveys_fillFrom key n hexact (congrArg Prod.fst hfill)
    rw [hfill] at hconveys
    exact Or.inl hconveys

/-- The parameter `group` with a name of 256 bytes. -/
def longGroup : WitParam where
  key := ascii "group"
  value := .utf8String (List.replicate 256 97)
  extent_lt := by
    rw [WitValue.extent, List.length_replicate]
    decide

/-- The number 2 ^ 32 is stored for a request of an `int` as 0, and a string of 256 bytes without
its last byte. Both requests count as filled. -/
theorem not_fillsExactly :
    ¬FillsExactly ⟨ascii "bits", .integer, .mem (List.replicate 4 0), osslParamUnmodified⟩
        ⟨ascii "bits", .unsignedInteger 0x100000000, by decide⟩ ∧
      ¬FillsExactly ⟨ascii "group", .utf8String, .mem (List.replicate 300 0), osslParamUnmodified⟩
        longGroup := by
  constructor
  · intro h
    have hfits : NumberFits (2 ^ 32) .integer 4 := h.representable _ _ (by decide)
    revert hfits
    decide
  · intro h
    have hshort := (h.representable _ _ (by decide +kernel)).1
    rw [List.length_replicate] at hshort
    omega

end OpenSSLWasm.Provider
