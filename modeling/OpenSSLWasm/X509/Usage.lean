import OpenSSLWasm.X509.VerifyChain

/-!
# Usages and constraints

The extensions that say what a key may be used for, as `src/x509_build.c` writes them and
`certificate.info` in `src/x509.c` reads them.

## Main definitions

* `buildKu`, `buildEku`, `buildBasicConstraints`: the writers;
* `x509GetKeyUsage` and `x509GetExtendedKeyUsage`: the masks that libcrypto makes of extensions;
* `infoKeyUsage`, `infoExtendedKeyUsage`, `infoBasicConstraints`: the readers.

## Main results

* `infoKeyUsage_buildKu_iff`: the flags are read in the reverse order, and the last is lost;
* `mem_infoExtendedKeyUsage_buildEku`: extended usages come back, as a set;
* `infoBasicConstraints_buildBasicConstraints`: so do the constraints;
* `asn1IntegerSet_eq_iff`: from `2 ^ 31` on, the length of a path is encoded as a negative number.
-/

namespace OpenSSLWasm.X509

/-! ## Key usage -/

/-- `key-usage`, the flags in the order of the interface, `digital-signature` first. -/
abbrev KeyUsage := BitVec 9

/-- The bits that are set in the `ASN1_BIT_STRING`, of the nine that there are. -/
def buildKu (flags : BitVec 16) : List ℕ :=
  (List.range 9).filter fun i => flags &&& 1#16 <<< i ≠ 0

/-- What libcrypto's masks have for a bit of the extension, `KU_DIGITAL_SIGNATURE` first. -/
def kuMask : ℕ → BitVec 32
  | 0 => 0x80
  | 1 => 0x40
  | 2 => 0x20
  | 3 => 0x10
  | 4 => 0x08
  | 5 => 0x04
  | 6 => 0x02
  | 7 => 0x01
  | 8 => 0x8000
  | _ => 0

/-- `UINT32_MAX`, which stands for an extension that is not there. -/
def uint32Max : BitVec 32 := BitVec.allOnes 32

/-- `X509_get_key_usage`. -/
def x509GetKeyUsage : Option (List ℕ) → BitVec 32
  | none => uint32Max
  | some bits => bits.foldl (fun m i => m ||| kuMask i) 0#32

/-- The key usage in `certificate.info`; only the nine lowest bits are flags of the interface. -/
def infoKeyUsage (ext : Option (List ℕ)) : Option KeyUsage :=
  let ku := x509GetKeyUsage ext
  if ku ≠ uint32Max then some ((ku.setWidth 16).setWidth 9) else none

/-! ## Extended key usage -/

/-- The objects of an `EXTENDED_KEY_USAGE`. -/
inductive UsageObject
  | serverAuth
  | clientAuth
  | codeSign
  | emailProtect
  | timeStamp
  | ocspSign
  | anyExtendedKeyUsage
  | other (nid : ℕ)
  deriving DecidableEq, Repr

def buildEkuObject : ExtendedKeyUsage → UsageObject
  | .serverAuth => .serverAuth
  | .clientAuth => .clientAuth
  | .codeSigning => .codeSign
  | .emailProtection => .emailProtect
  | .timeStamping => .timeStamp
  | .ocspSigning => .ocspSign
  | .any => .anyExtendedKeyUsage

def buildEku (eku : List ExtendedKeyUsage) : Option (List UsageObject) :=
  if eku.length = 0 then none else some (eku.map buildEkuObject)

/-- The `XKU_*` bits. The objects that the interface does not know have bits of their own or
none. -/
def xkuMask : UsageObject → BitVec 32
  | .serverAuth => 0x1
  | .clientAuth => 0x2
  | .emailProtect => 0x4
  | .codeSign => 0x8
  | .ocspSign => 0x20
  | .timeStamp => 0x40
  | .anyExtendedKeyUsage => 0x100
  | .other _ => 0

/-- `X509_get_extended_key_usage`. -/
def x509GetExtendedKeyUsage : Option (List UsageObject) → BitVec 32
  | none => uint32Max
  | some objs => objs.foldl (fun m o => m ||| xkuMask o) 0#32

/-- The extended key usages in `certificate.info`. -/
def infoExtendedKeyUsage (ext : Option (List UsageObject)) : List ExtendedKeyUsage :=
  let xku := x509GetExtendedKeyUsage ext
  if xku ≠ uint32Max then
    (if xku &&& 0x1 ≠ 0 then [.serverAuth] else []) ++
    (if xku &&& 0x2 ≠ 0 then [.clientAuth] else []) ++
    (if xku &&& 0x8 ≠ 0 then [.codeSigning] else []) ++
    (if xku &&& 0x4 ≠ 0 then [.emailProtection] else []) ++
    (if xku &&& 0x40 ≠ 0 then [.timeStamping] else []) ++
    (if xku &&& 0x20 ≠ 0 then [.ocspSigning] else []) ++
    if xku &&& 0x100 ≠ 0 then [.any] else []
  else []

/-! ## Basic constraints -/

/-- `basic-constraints`. -/
structure BasicConstraints where
  isCa : Bool
  pathLen : Option (BitVec 32)
  deriving DecidableEq, Repr

/-- `BASIC_CONSTRAINTS`. -/
structure AsnBasicConstraints where
  ca : ℤ
  pathlen : Option ℤ
  deriving DecidableEq, Repr

/-- `ASN1_INTEGER_set`, which takes a `long` of 32 bits. -/
def asn1IntegerSet (v : BitVec 32) : ℤ := v.toInt

/-- `ASN1_INTEGER_get`, with -1 for what does not fit into a `long`. -/
def asn1IntegerGet (z : ℤ) : ℤ := if -2 ^ 31 ≤ z ∧ z < 2 ^ 31 then z else -1

/-- The value that `build_and_sign` encodes. -/
def buildBasicConstraints (bc : BasicConstraints) : AsnBasicConstraints where
  ca := if bc.isCa then 1 else 0
  pathlen := bc.pathLen.map asn1IntegerSet

/-- The basic constraints in `certificate.info`. -/
def infoBasicConstraints (ext : Option AsnBasicConstraints) : Option BasicConstraints :=
  ext.map fun (bc : AsnBasicConstraints) =>
    { isCa := decide (bc.ca ≠ 0)
      pathLen := bc.pathlen.map fun z => BitVec.ofInt 32 (asn1IntegerGet z) }

/-! ## Masks -/

/-- A bit of a mask that is put together from those of a list. -/
theorem getLsbD_foldl_or {α : Type} {w : ℕ} (mask : α → BitVec w) (as : List α) (m : BitVec w)
    (j : ℕ) :
    (as.foldl (fun m a => m ||| mask a) m).getLsbD j =
      (m.getLsbD j || as.any fun a => (mask a).getLsbD j) := by
  induction as generalizing m with
  | nil => simp
  | cons a as ih => rw [List.foldl_cons, ih, BitVec.getLsbD_or, List.any_cons, Bool.or_assoc]

/-- Testing a mask for one of its bits. -/
theorem and_twoPow_ne_zero_iff {w : ℕ} (x : BitVec w) {i : ℕ} (hi : i < w) :
    x &&& BitVec.twoPow w i ≠ 0#w ↔ x.getLsbD i = true := by
  -- the mask has the bit itself, so it is not zero
  have hpow : BitVec.twoPow w i ≠ 0#w := by
    intro h
    have h := congrArg (BitVec.getLsbD · i) h
    simp [hi] at h
  rw [BitVec.and_twoPow]
  split <;> simp_all

/-- Where no bit of a list is the highest, the mask is not the one for an extension that is not
there. -/
theorem foldl_or_ne_uint32Max {α : Type} {mask : α → BitVec 32}
    (h : ∀ a, (mask a).getLsbD 31 = false) (as : List α) :
    as.foldl (fun m a => m ||| mask a) 0#32 ≠ uint32Max := by
  -- the highest bit of `UINT32_MAX` would have to come from the list
  intro hmax
  have hlast := getLsbD_foldl_or mask as 0#32 31
  rw [hmax, BitVec.getLsbD_zero, Bool.false_or, eq_comm] at hlast
  obtain ⟨a, -, ha⟩ := List.any_eq_true.mp hlast
  rw [h a] at ha
  cases ha

/-! ## Key usage -/

theorem mem_buildKu {flags : BitVec 16} {i : ℕ} :
    i ∈ buildKu flags ↔ i < 9 ∧ flags.getLsbD i = true := by
  rw [buildKu, List.mem_filter, List.mem_range]
  refine and_congr_right fun hi => ?_
  rw [decide_eq_true_iff, ← BitVec.twoPow_eq]
  exact and_twoPow_ne_zero_iff flags (by omega)

/-- The first usages go down from bit 7 of the mask; the last is past the flags of the
interface. -/
theorem getLsbD_kuMask : ∀ i < 9, ∀ j < 9, (kuMask i).getLsbD j = true ↔ i + j = 7 := by
  decide

theorem getLsbD_kuMask_last (i : ℕ) : (kuMask i).getLsbD 31 = false := by
  rw [kuMask.eq_def]
  split <;> rfl

theorem infoKeyUsage_some (bits : List ℕ) :
    infoKeyUsage (some bits) = some (((x509GetKeyUsage (some bits)).setWidth 16).setWidth 9) := by
  have hne : x509GetKeyUsage (some bits) ≠ uint32Max :=
    foldl_or_ne_uint32Max getLsbD_kuMask_last bits
  rw [infoKeyUsage, if_pos hne]

@[simp] theorem infoKeyUsage_none : infoKeyUsage none = none := by
  simp [infoKeyUsage, x509GetKeyUsage]

/-- A flag is reported exactly if the one in its mirror image was set. -/
theorem getLsbD_x509GetKeyUsage_buildKu (flags : BitVec 16) {j : ℕ} (hj : j < 9) :
    (x509GetKeyUsage (some (buildKu flags))).getLsbD j = true ↔
      ∃ i, i + j = 7 ∧ flags.getLsbD i = true := by
  rw [x509GetKeyUsage, getLsbD_foldl_or, BitVec.getLsbD_zero, Bool.false_or, List.any_eq_true]
  constructor
  · rintro ⟨i, hi, hmask⟩
    obtain ⟨hi, hflag⟩ := mem_buildKu.mp hi
    exact ⟨i, (getLsbD_kuMask i hi j hj).mp hmask, hflag⟩
  · rintro ⟨i, hij, hflag⟩
    have hi : i < 9 := by omega
    exact ⟨i, mem_buildKu.mpr ⟨hi, hflag⟩, (getLsbD_kuMask i hi j hj).mpr hij⟩

/-- Flags that are their own mirror image, without the last one. -/
def KeyUsage.Mirrored (flags : KeyUsage) : Prop :=
  flags.getLsbD 8 = false ∧ ∀ i j, i + j = 7 → flags.getLsbD i = flags.getLsbD j

/-- The flags of a certificate are reported as they were given exactly if they are their own mirror
image, without the last one. -/
theorem infoKeyUsage_buildKu_iff (flags : KeyUsage) :
    infoKeyUsage (some (buildKu (flags.setWidth 16))) = some flags ↔ flags.Mirrored := by
  -- neither the widening to the C type nor the casts of the reader touch the nine flags
  have hget {i : ℕ} (hi : i < 9) : (flags.setWidth 16).getLsbD i = flags.getLsbD i := by
    rw [BitVec.getLsbD_setWidth, decide_eq_true (by omega : i < 16), Bool.true_and]
  have hlow (ku : BitVec 32) {j : ℕ} (hj : j < 9) :
      ((ku.setWidth 16).setWidth 9).getLsbD j = ku.getLsbD j := by
    rw [BitVec.getLsbD_setWidth, BitVec.getLsbD_setWidth, decide_eq_true hj,
      decide_eq_true (by omega : j < 16), Bool.true_and, Bool.true_and]
  rw [infoKeyUsage_some, Option.some_inj]
  constructor
  · intro h
    have hread {j : ℕ} (hj : j < 9) :
        flags.getLsbD j = true ↔ ∃ i, i + j = 7 ∧ flags.getLsbD i = true := by
      rw [← h, hlow _ hj, getLsbD_x509GetKeyUsage_buildKu _ hj, h]
      -- no flag past the ninth has a mirror image
      exact exists_congr fun i => and_congr_right fun hij => by rw [hget (by omega)]
    refine ⟨?_, fun i j hij => ?_⟩
    · -- no flag is the mirror image of the last one
      rw [Bool.eq_false_iff]
      intro h8
      obtain ⟨i, hi, -⟩ := (hread (by omega)).mp h8
      omega
    · rw [Bool.eq_iff_iff]
      refine ⟨fun hi => (hread (by omega)).mpr ⟨i, hij, hi⟩, fun hj => ?_⟩
      exact (hread (by omega)).mpr ⟨j, by omega, hj⟩
  · rintro ⟨h8, hmirror⟩
    refine BitVec.eq_of_getLsbD_eq fun j hj => ?_
    rw [hlow _ hj, Bool.eq_iff_iff, getLsbD_x509GetKeyUsage_buildKu _ hj]
    constructor
    · rintro ⟨i, hij, hi⟩
      rw [← hmirror i j hij, ← hget (by omega), hi]
    · intro hflag
      -- the last flag is not set, and every other one has a mirror image
      have hne : j ≠ 8 := by
        rintro rfl
        rw [h8] at hflag
        cases hflag
      refine ⟨7 - j, by omega, ?_⟩
      rw [hget (by omega), hmirror (7 - j) j (by omega), hflag]

/-! ## Extended key usage -/

/-- The bit by which `certificate.info` knows a usage. -/
def xkuBit : ExtendedKeyUsage → ℕ
  | .serverAuth => 0
  | .clientAuth => 1
  | .codeSigning => 3
  | .emailProtection => 2
  | .timeStamping => 6
  | .ocspSigning => 5
  | .any => 8

/-- No two usages share a bit. -/
theorem getLsbD_xkuMask_buildEkuObject (u v : ExtendedKeyUsage) :
    (xkuMask (buildEkuObject v)).getLsbD (xkuBit u) = true ↔ v = u := by
  cases u <;> cases v <;> decide

theorem getLsbD_xkuMask_last (o : UsageObject) : (xkuMask o).getLsbD 31 = false := by
  cases o <;> simp [xkuMask]

theorem mem_infoExtendedKeyUsage_some {objs : List UsageObject} {u : ExtendedKeyUsage} :
    u ∈ infoExtendedKeyUsage (some objs) ↔
      (x509GetExtendedKeyUsage (some objs)).getLsbD (xkuBit u) = true := by
  have hne : x509GetExtendedKeyUsage (some objs) ≠ uint32Max :=
    foldl_or_ne_uint32Max getLsbD_xkuMask_last objs
  rw [infoExtendedKeyUsage, if_pos hne]
  -- from here on, any mask will do: each usage is looked up by its own bit
  generalize x509GetExtendedKeyUsage (some objs) = xku
  have hbit : xku &&& BitVec.twoPow 32 (xkuBit u) ≠ 0#32 ↔ xku.getLsbD (xkuBit u) = true :=
    and_twoPow_ne_zero_iff xku (by cases u <;> decide)
  rw [← hbit]
  cases u
  all_goals
    simp only [List.mem_append, List.mem_ite_nil_right, List.mem_singleton, reduceCtorEq, and_true,
      and_false, or_false, false_or]
    exact Iff.rfl

/-- Extended usages come back, as a set. -/
theorem mem_infoExtendedKeyUsage_buildEku (eku : List ExtendedKeyUsage) (u : ExtendedKeyUsage) :
    u ∈ infoExtendedKeyUsage (buildEku eku) ↔ u ∈ eku := by
  rw [buildEku]
  split
  · rename_i h
    rw [List.length_eq_zero_iff.mp h]
    simp [infoExtendedKeyUsage, x509GetExtendedKeyUsage]
  · rw [mem_infoExtendedKeyUsage_some, x509GetExtendedKeyUsage, getLsbD_foldl_or,
      BitVec.getLsbD_zero, Bool.false_or, List.any_map, List.any_eq_true]
    simp [getLsbD_xkuMask_buildEkuObject]

/-! ## Basic constraints -/

/-- What was set comes back, since the signed reading of a `long` undoes the one of
`ASN1_INTEGER_set`. -/
theorem ofInt_asn1IntegerGet_asn1IntegerSet (v : BitVec 32) :
    BitVec.ofInt 32 (asn1IntegerGet (asn1IntegerSet v)) = v := by
  -- a `long` is always in its own range
  have hlo := BitVec.le_toInt v
  have hhi := BitVec.toInt_lt (x := v)
  rw [asn1IntegerGet, asn1IntegerSet, if_pos ⟨hlo, hhi⟩, BitVec.ofInt_toInt]

/-- The constraints are reported as they were given, even where a negative length was encoded. -/
theorem infoBasicConstraints_buildBasicConstraints (bc : Option BasicConstraints) :
    infoBasicConstraints (bc.map buildBasicConstraints) = bc := by
  rcases bc with _ | ⟨isCa, _ | v⟩
  · rfl
  · cases isCa <;> rfl
  · have hv := ofInt_asn1IntegerGet_asn1IntegerSet v
    cases isCa <;> simp [infoBasicConstraints, buildBasicConstraints, hv]

/-- The length that is encoded is the one that was given exactly if that is less than `2 ^ 31`. -/
theorem asn1IntegerSet_eq_iff (v : BitVec 32) : asn1IntegerSet v = v.toNat ↔ v.toNat < 2 ^ 31 := by
  rw [asn1IntegerSet, BitVec.toInt_eq_toNat_cond]
  split <;> omega

end OpenSSLWasm.X509
