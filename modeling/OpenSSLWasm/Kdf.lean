import OpenSSLWasm.Lib.Endian
import OpenSSLWasm.Lib.LengthPrefixed
import OpenSSLWasm.Lib.Slots
import OpenSSLWasm.Pkey.Basic

/-!
# Key derivation of TLS 1.3

`tls13-expand-label` of `src/kdf.c` derives a key with HKDF-Expand, whose info is an `HkdfLabel` of
RFC 8446: the length of the key, a label and a context. The function writes it byte by byte into
memory of a size that it has computed before.

## Main definitions

* `tls13ExpandLabel` and `buildInfo`: the function, and how the info is written;
* `derive`: the call of the KDF;
* `HkdfLabel` and `HkdfLabel.encode`: what the info is to stand for, and its layout.

## Main results

* `buildInfo_eq_some`: the info is written within its memory, and fills it;
* `HkdfLabel.decode_encode`: the label can be told from its layout;
* `tls13ExpandLabel_spec`: labels that have a layout are derived with, others are refused.
-/

namespace OpenSSLWasm.Kdf

open Slots

/-- `kdf-error`. -/
inductive KdfError
  | unsupportedAlgorithm
  | invalidParameter
  | outputTooLarge
  | internal (code : BitVec 64)
  deriving DecidableEq, Repr

/-- `wit_digest_name`. -/
def witDigestName (a : DigestAlgorithm) : Option (List Byte) :=
  match a with
  | .md5 => some (ascii "MD5")
  | .sha1 => some (ascii "SHA1")
  | .sha224 => some (ascii "SHA2-224")
  | .sha256 => some (ascii "SHA2-256")
  | .sha384 => some (ascii "SHA2-384")
  | .sha512 => some (ascii "SHA2-512")
  | .sha512t224 => some (ascii "SHA2-512/224")
  | .sha512t256 => some (ascii "SHA2-512/256")
  | .sha3t224 => some (ascii "SHA3-224")
  | .sha3t256 => some (ascii "SHA3-256")
  | .sha3t384 => some (ascii "SHA3-384")
  | .sha3t512 => some (ascii "SHA3-512")
  | .shake128 => some (ascii "SHAKE-128")
  | .shake256 => some (ascii "SHAKE-256")
  | .blake2s256 => some (ascii "BLAKE2S-256")
  | .blake2b512 => some (ascii "BLAKE2B-512")
  | .ripemd160 => some (ascii "RIPEMD-160")
  | .sm3 => some (ascii "SM3")

/-! ## The call of the KDF -/

/-- The parameters of HKDF. -/
structure HkdfParams where
  mode : ℕ
  digest : List Byte
  key : List Byte
  info : List Byte
  deriving DecidableEq, Repr

/-- `EVP_KDF_HKDF_MODE_EXPAND_ONLY`. -/
def expandOnly : ℕ := 2

/-- The EVP functions. -/
structure Evp where
  /-- `EVP_KDF_fetch`. -/
  fetch : List Byte → Bool
  /-- `EVP_KDF_CTX_new`. -/
  ctxNew : Bool
  /-- `EVP_KDF_derive`, for so many bytes. -/
  derive : List Byte → HkdfParams → ℕ → Option (List Byte)
  /-- `ERR_peek_last_error`. -/
  lastError : BitVec 64

def derive (E : Evp) (name : List Byte) (params : HkdfParams) (outLen : BitVec 32) :
    Except KdfError (List Byte) :=
  if E.fetch name = false then .error .unsupportedAlgorithm
  else if E.ctxNew = false then .error (.internal 0)
  else orError (E.derive name params outLen.toNat) (.internal E.lastError)

/-! ## TLS 1.3 HKDF-Expand-Label -/

/-- `tls13-expand-label-params`. The label is a `string`, which has less than `2 ^ 31` bytes. -/
structure Tls13ExpandLabelParams where
  hash : DigestAlgorithm
  label : ListU8
  context : ListU8
  secret : ListU8
  label_lt : label.len < 2 ^ 31

/-- `prefix`, which is `prefix_len` bytes long. -/
def tls13 : List Byte := ascii "tls13 "

def tls13Len : ℕ := 6

/-- The arithmetic of `size_t`. -/
def sizeAdd (m n : ℕ) : ℕ := (m + n) % 2 ^ 32

/-- The info in memory of `infoLen` bytes, and what is then read of it. There is nothing if a write
goes past the memory, or if a byte is read that was not written. -/
def buildInfo (infoLen : ℕ) (outLen : BitVec 32) (label context : ListU8) :
    Option (List Byte) := do
  let info ← (GrowArray.ofCap infoLen).put ((outLen >>> 8 &&& 0xff).setWidth 8)
  let info ← info.put ((outLen &&& 0xff).setWidth 8)
  let info ← info.put (BitVec.ofNat 8 (sizeAdd tls13Len label.len))
  let info ← info.putAll tls13
  let info ← info.putAll (readBytes label.ptr label.len)
  let info ← info.put (BitVec.ofNat 8 context.len)
  let info ← info.putAll (readBytes context.ptr context.len)
  load info.slots infoLen

/-- `info_len`. -/
def infoLen (label context : ListU8) : ℕ :=
  sizeAdd (sizeAdd (sizeAdd (2 + 1 + tls13Len) label.len) 1) context.len

/-- There is no result if the info is not written within its memory. -/
def tls13ExpandLabel (E : Evp) (params : Tls13ExpandLabelParams) (outLen : BitVec 32) :
    Option (Except KdfError (List Byte)) :=
  match witDigestName params.hash with
  | none => some (.error .unsupportedAlgorithm)
  | some dname =>
    if 255 < sizeAdd params.label.len tls13Len ∨ 255 < params.context.len ∨
        65535 < outLen.toNat then
      some (.error .invalidParameter)
    else do
      let info ← buildInfo (infoLen params.label params.context) outLen params.label params.context
      some (derive E (ascii "HKDF")
        { mode := expandOnly, digest := dname, key := params.secret.bytes, info := info } outLen)

/-! ## Labels -/

/-- `HkdfLabel` of RFC 8446: the label is given without what it starts with. -/
@[ext] structure HkdfLabel where
  length : ℕ
  label : List Byte
  context : List Byte
  length_lt : length < 2 ^ 16
  label_lt : (tls13 ++ label).length < 2 ^ 8
  context_lt : context.length < 2 ^ 8

namespace HkdfLabel

/-- The layout: a number of two bytes, and two strings after a byte for their length. -/
def encode (l : HkdfLabel) : List Byte :=
  Endian.be 2 l.length ++ LengthPrefixed.encode [tls13 ++ l.label, l.context]

/-- The label with a given layout, if it is one. -/
def decode : List Byte → Option HkdfLabel
  | hi :: lo :: rest =>
    match LengthPrefixed.decode 2 rest with
    | [label, context] =>
      if h : Endian.beValue [hi, lo] < 2 ^ 16 ∧ (tls13 ++ label.drop tls13Len).length < 2 ^ 8 ∧
          context.length < 2 ^ 8 ∧ tls13 <+: label then
        some ⟨Endian.beValue [hi, lo], label.drop tls13Len, context, h.1, h.2.1, h.2.2.1⟩
      else none
    | _ => none
  | _ => none

end HkdfLabel

/-- The label that the parameters stand for, if they stand for one. -/
def Tls13ExpandLabelParams.hkdfLabel? (params : Tls13ExpandLabelParams) (outLen : BitVec 32) :
    Option HkdfLabel :=
  if h : outLen.toNat < 2 ^ 16 ∧ (tls13 ++ params.label.bytes).length < 2 ^ 8 ∧
      params.context.bytes.length < 2 ^ 8 then
    some ⟨outLen.toNat, params.label.bytes, params.context.bytes, h.1, h.2.1, h.2.2⟩
  else none

/-! ## Layouts -/

@[simp] theorem length_tls13 : tls13.length = tls13Len := by decide

theorem HkdfLabel.length_encode (l : HkdfLabel) :
    l.encode.length = 2 + 1 + tls13Len + l.label.length + 1 + l.context.length := by
  simp only [encode, List.length_append, Endian.length_be, LengthPrefixed.length_encode,
    List.flatten_cons, List.flatten_nil, List.length_cons, List.length_nil, length_tls13]
  omega

/-- The label can be told from its layout. -/
theorem HkdfLabel.decode_encode (l : HkdfLabel) : decode l.encode = some l := by
  have hstrings : LengthPrefixed.decode 2 (LengthPrefixed.encode [tls13 ++ l.label, l.context]) =
      [tls13 ++ l.label, l.context] := by
    apply LengthPrefixed.decode_encode_of_length_lt
    · intro p hp
      rcases List.mem_cons.mp hp with rfl | hp
      · exact l.label_lt
      · obtain rfl := List.mem_singleton.mp hp
        exact l.context_lt
    · exact le_rfl
  have hdrop : (tls13 ++ l.label).drop tls13Len = l.label := by
    rw [← length_tls13, List.drop_left]
  have hvalue : Endian.beValue (Endian.be 2 l.length) = l.length := by
    rw [Endian.beValue_be]
    exact Nat.mod_eq_of_lt l.length_lt
  obtain ⟨hi, lo, hbe⟩ : ∃ hi lo, Endian.be 2 l.length = [hi, lo] :=
    List.length_eq_two.mp (Endian.length_be 2 l.length)
  rw [hbe] at hvalue
  rw [encode, hbe, List.cons_append, List.cons_append, List.nil_append, decode, hstrings]
  simp only [hvalue, hdrop]
  exact dif_pos ⟨l.length_lt, l.label_lt, l.context_lt, List.prefix_append _ _⟩

theorem HkdfLabel.encode_injective : Function.Injective encode := by
  intro l l' h
  have hdecode := congrArg decode h
  rwa [decode_encode, decode_encode, Option.some.injEq] at hdecode

/-! ## The info -/

/-- The two bytes that are written for the length. -/
theorem be_two_toNat (n : BitVec 32) :
    Endian.be 2 n.toNat = [(n >>> 8 &&& 0xff).setWidth 8, (n &&& 0xff).setWidth 8] := by
  have hmask : ∀ m : ℕ, m &&& 255 = m % 256 := fun m => Nat.and_two_pow_sub_one_eq_mod m 8
  have hhigh : BitVec.ofNat 8 (n.toNat / 256) = (n >>> 8 &&& 0xff).setWidth 8 := by
    apply BitVec.eq_of_toNat_eq
    simp [hmask, Nat.shiftRight_eq_div_pow]
  have hlow : BitVec.ofNat 8 n.toNat = (n &&& 0xff).setWidth 8 := by
    apply BitVec.eq_of_toNat_eq
    simp [hmask]
  rw [← hhigh, ← hlow]
  rfl

/-- Every write is within the memory, and fills it. -/
theorem buildInfo_eq_some {n : ℕ} (outLen : BitVec 32) (label context : ListU8)
    (hlabel : tls13Len + label.len < 2 ^ 8)
    (hn : n = 2 + 1 + tls13Len + label.len + 1 + context.len) :
    buildInfo n outLen label context = some (Endian.be 2 outLen.toNat ++
      LengthPrefixed.encode [tls13 ++ label.bytes, context.bytes]) := by
  have hsize : sizeAdd tls13Len label.len = (tls13 ++ label.bytes).length := by
    rw [List.length_append, length_tls13, ListU8.length_bytes, sizeAdd]
    omega
  have hlen : (Endian.be 2 outLen.toNat ++
      LengthPrefixed.encode [tls13 ++ label.bytes, context.bytes]).length = n := by
    simp only [List.length_append, Endian.length_be, LengthPrefixed.length_encode,
      List.flatten_cons, List.flatten_nil, List.length_cons, List.length_nil, length_tls13,
      ListU8.length_bytes]
    omega
  -- the seven writes are one
  simp only [buildInfo, Option.bind_eq_bind, GrowArray.put_eq_putAll, GrowArray.bind_putAll_putAll,
    hsize, ← hlen]
  rw [← GrowArray.load_putAll_ofCap]
  simp only [be_two_toNat, LengthPrefixed.encode_cons, LengthPrefixed.encode_nil, ListU8.bytes,
    length_readBytes, List.append_assoc, List.cons_append, List.nil_append, List.append_nil]

/-! ## Deriving with a label -/

theorem exists_witDigestName (a : DigestAlgorithm) : ∃ dname, witDigestName a = some dname := by
  cases a <;> exact ⟨_, rfl⟩

section

variable (params : Tls13ExpandLabelParams) (outLen : BitVec 32)

/-- The check of the parameters. -/
theorem isSome_hkdfLabel?_iff :
    (params.hkdfLabel? outLen).isSome ↔ (tls13 ++ params.label.bytes).length ≤ 255 ∧
      params.context.bytes.length ≤ 255 ∧ outLen.toNat ≤ 65535 := by
  rw [Tls13ExpandLabelParams.hkdfLabel?, Option.isSome_dite]
  omega

/-- What is checked is whether there is a label: the sum of the two lengths does not wrap around. -/
theorem check_iff :
    (255 < sizeAdd params.label.len tls13Len ∨ 255 < params.context.len ∨
      65535 < outLen.toNat) ↔ params.hkdfLabel? outLen = none := by
  have hlt := params.label_lt
  have hcheck := isSome_hkdfLabel?_iff params outLen
  simp only [List.length_append, length_tls13, ListU8.length_bytes] at hcheck
  rw [← Option.not_isSome_iff_eq_none, hcheck, sizeAdd, tls13Len]
  omega

variable {params outLen}

/-- The label is the one that was asked for. -/
theorem eq_of_hkdfLabel? {l : HkdfLabel} (h : params.hkdfLabel? outLen = some l) :
    l.length = outLen.toNat ∧ l.label = params.label.bytes ∧ l.context = params.context.bytes := by
  rw [Tls13ExpandLabelParams.hkdfLabel?, Option.dite_none_right_eq_some] at h
  obtain ⟨hlabel, h⟩ := h
  rw [← Option.some.inj h]
  exact ⟨rfl, rfl, rfl⟩

/-- None of the sums in the size of the memory wraps around. -/
theorem infoLen_eq (h : (params.hkdfLabel? outLen).isSome) :
    infoLen params.label params.context =
      2 + 1 + tls13Len + params.label.len + 1 + params.context.len := by
  rw [isSome_hkdfLabel?_iff, List.length_append, length_tls13, ListU8.length_bytes,
    ListU8.length_bytes] at h
  simp only [infoLen, sizeAdd, tls13Len] at h ⊢
  omega

/-- The computed size is the length of the layout. -/
theorem length_encode_of_hkdfLabel? {l : HkdfLabel} (h : params.hkdfLabel? outLen = some l) :
    l.encode.length = infoLen params.label params.context := by
  obtain ⟨-, hlabel, hcontext⟩ := eq_of_hkdfLabel? h
  rw [HkdfLabel.length_encode, hlabel, hcontext, ListU8.length_bytes, ListU8.length_bytes,
    infoLen_eq (by rw [h]; rfl)]

/-- What is written for a label is its layout. -/
theorem buildInfo_of_hkdfLabel? {l : HkdfLabel} (h : params.hkdfLabel? outLen = some l) :
    buildInfo (infoLen params.label params.context) outLen params.label params.context =
      some l.encode := by
  have hsome : (params.hkdfLabel? outLen).isSome := by rw [h]; rfl
  obtain ⟨hlength, hlabel, hcontext⟩ := eq_of_hkdfLabel? h
  have hfits := (isSome_hkdfLabel?_iff params outLen).mp hsome
  rw [List.length_append, length_tls13, ListU8.length_bytes] at hfits
  rw [buildInfo_eq_some outLen _ _ (Nat.lt_succ_of_le hfits.1) (infoLen_eq hsome),
    HkdfLabel.encode, hlength, hlabel, hcontext]

variable (params outLen)

/-- Parameters that stand for a label are derived with its layout, all others are refused. -/
theorem tls13ExpandLabel_eq (E : Evp) :
    ∃ dname, witDigestName params.hash = some dname ∧ tls13ExpandLabel E params outLen =
      some ((params.hkdfLabel? outLen).elim (.error .invalidParameter) fun l =>
        derive E (ascii "HKDF") ⟨expandOnly, dname, params.secret.bytes, l.encode⟩ outLen) := by
  obtain ⟨dname, hname⟩ := exists_witDigestName params.hash
  refine ⟨dname, hname, ?_⟩
  simp only [tls13ExpandLabel, hname, check_iff]
  rcases hlabel : params.hkdfLabel? outLen with _ | l
  · rfl
  · rw [if_neg (Option.some_ne_none l), buildInfo_of_hkdfLabel? hlabel]
    rfl

end

/-- The function passes its check exactly for the parameters that stand for a label. It then derives
with the layout of that label, which fills the memory that was taken for it and from which the label
can be told; otherwise the parameters are invalid. -/
theorem tls13ExpandLabel_spec :
    (∀ (E : Evp) (params : Tls13ExpandLabelParams) (outLen : BitVec 32),
      ∃ dname, witDigestName params.hash = some dname ∧ tls13ExpandLabel E params outLen =
        some ((params.hkdfLabel? outLen).elim (.error .invalidParameter) fun l =>
          derive E (ascii "HKDF") ⟨expandOnly, dname, params.secret.bytes, l.encode⟩ outLen)) ∧
    (∀ (params : Tls13ExpandLabelParams) (outLen : BitVec 32),
      ((params.hkdfLabel? outLen).isSome ↔ (tls13 ++ params.label.bytes).length ≤ 255 ∧
        params.context.bytes.length ≤ 255 ∧ outLen.toNat ≤ 65535) ∧
      ∀ l ∈ params.hkdfLabel? outLen,
        (l.length = outLen.toNat ∧ l.label = params.label.bytes ∧
          l.context = params.context.bytes) ∧
        l.encode.length = infoLen params.label params.context) ∧
    (∀ l : HkdfLabel, HkdfLabel.decode l.encode = some l) ∧ Function.Injective HkdfLabel.encode := by
  refine ⟨fun E params outLen => tls13ExpandLabel_eq params outLen E, fun params outLen => ?_,
    HkdfLabel.decode_encode, HkdfLabel.encode_injective⟩
  refine ⟨isSome_hkdfLabel?_iff params outLen, fun l hl => ?_⟩
  exact ⟨eq_of_hkdfLabel? hl, length_encode_of_hkdfLabel? hl⟩

end OpenSSLWasm.Kdf
