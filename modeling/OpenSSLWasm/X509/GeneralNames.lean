import OpenSSLWasm.Support

/-!
# General names

A certificate or a request names its subject in a list of general names. `build_sans` in
`src/x509_build.c` makes the ASN.1 value from the list of the interface; `ext_sans` in
`src/x509.c` reads it from a certificate, and `csr.info` from a request, each with its own case
analysis.

## Main definitions

* `GeneralName` and `AsnGeneralName`: a name of the interface, and one of ASN.1;
* `asn1StringSet`: what ends up in a string of ASN.1;
* `buildSans`, `extSans`, `csrSans`: the writer and the two readers.

## Main results

* `extSans_buildSans_iff` and `csrSans_buildSans_iff`: the lists that a reader gives back;
* `csrSans_eq_extSans_iff`: the values on which the readers agree.
-/

namespace OpenSSLWasm.X509

/-! ## Names -/

/-- `general-name`, over the type of its contents. -/
inductive GeneralName (β : Type)
  | dns (s : β)
  | email (s : β)
  | uri (s : β)
  | ip (s : β)
  /-- The DER of a name of another type. -/
  | other (der : β)
  deriving DecidableEq, Repr

def GeneralName.map {β γ : Type} (f : β → γ) : GeneralName β → GeneralName γ
  | .dns s => .dns (f s)
  | .email s => .email (f s)
  | .uri s => .uri (f s)
  | .ip s => .ip (f s)
  | .other der => .other (f der)

/-- `GENERAL_NAME`. -/
inductive AsnGeneralName
  | dns (s : List Byte)
  | email (s : List Byte)
  | uri (s : List Byte)
  | ipadd (s : List Byte)
  /-- The types that have no case of their own here, told apart by their DER. -/
  | uncommon (der : List Byte)
  deriving DecidableEq, Repr

/-! ## Writing -/

/-- The contents of a fresh string after `ASN1_STRING_set(str, ptr, (int)len)`, whose result is
ignored. -/
def asn1StringSet (l : ListU8) : List Byte :=
  -- from a negative length on, the data are taken for a C string
  let data := if cInt l.len < 0 then cString (readBytes l.ptr (2 ^ 32)) else l.bytes
  -- a string of `INT_MAX` bytes or more is refused
  if 2 ^ 31 - 2 < data.length then [] else data

/-- One round of the loop in `build_sans`; a name without a case is left out. -/
def buildSan : GeneralName ListU8 → Option AsnGeneralName
  | .dns s => some (.dns (asn1StringSet s))
  | .email s => some (.email (asn1StringSet s))
  | .uri s => some (.uri (asn1StringSet s))
  | .ip s => some (.ipadd (asn1StringSet s))
  | .other _ => none

def buildSans (sans : List (GeneralName ListU8)) : Option (List AsnGeneralName) :=
  if sans.length = 0 then none else some (sans.filterMap buildSan)

/-- A string of ASN.1 holds what was given exactly if that is shorter than `INT_MAX`. -/
theorem asn1StringSet_eq_iff (l : ListU8) : asn1StringSet l = l.bytes ↔ l.len < 2 ^ 31 - 1 := by
  have hlen := l.length_bytes
  rw [asn1StringSet]
  rcases Nat.lt_or_ge l.len (2 ^ 31) with hl | hl
  · -- the bytes of the list are set, or refused, which is the same only for an empty list
    have hneg : ¬cInt l.len < 0 := by
      rw [cInt_of_lt hl]
      omega
    simp only [if_neg hneg, hlen]
    split
    · rw [eq_comm, ← List.length_eq_zero_iff, hlen]
      omega
    · simp only [true_iff]
      omega
  · -- what is read or refused is too short
    have hneg : cInt l.len < 0 := cInt_neg hl l.len_lt
    simp only [if_pos hneg]
    have hge : ¬l.len < 2 ^ 31 - 1 := by omega
    simp only [hge, iff_false]
    intro h
    have h := congrArg List.length h
    rw [hlen] at h
    split at h
    · rw [List.length_nil] at h
      omega
    · omega

/-! ## Reading -/

section

variable (i2dGeneralName : AsnGeneralName → List Byte)

/-- One round of the loop in `ext_sans`. -/
def extSan : AsnGeneralName → GeneralName (List Byte)
  | .dns s => .dns s
  | .email s => .email s
  | .uri s => .uri s
  | .ipadd s => .ip s
  | gn => .other (i2dGeneralName gn)

def extSans (gens : Option (List AsnGeneralName)) : List (GeneralName (List Byte)) :=
  (gens.getD []).map (extSan i2dGeneralName)

/-- One round of the loop in `csr.info`. -/
def csrSan : AsnGeneralName → GeneralName (List Byte)
  | .dns s => .dns s
  | gn => .other (i2dGeneralName gn)

/-- The names in `csr.info`. -/
def csrSans (gens : Option (List AsnGeneralName)) : List (GeneralName (List Byte)) :=
  (gens.getD []).map (csrSan i2dGeneralName)

/-! ## What is read back -/

/-- A name that `build_sans` writes as it is. -/
def GeneralName.Written : GeneralName ListU8 → Prop
  | .dns s | .email s | .uri s | .ip s => s.len < 2 ^ 31 - 1
  | .other _ => False

/-- A DNS name that `build_sans` writes as it is. -/
def GeneralName.WrittenDns : GeneralName ListU8 → Prop
  | .dns s => s.len < 2 ^ 31 - 1
  | _ => False

/-- The name of ASN.1 that has the same contents. -/
def GeneralName.toAsn : GeneralName (List Byte) → Option AsnGeneralName
  | .dns s => some (.dns s)
  | .email s => some (.email s)
  | .uri s => some (.uri s)
  | .ip s => some (.ipadd s)
  | .other _ => none

/-- A name on which the readers agree. -/
def AsnGeneralName.ReadAlike : AsnGeneralName → Prop
  | .dns _ | .uncommon _ => True
  | .email _ | .uri _ | .ipadd _ => False

variable {i2dGeneralName}

theorem extSan_buildSan_iff (n : GeneralName ListU8) :
    (buildSan n).map (extSan i2dGeneralName) = some (n.map ListU8.bytes) ↔ n.Written := by
  rcases n with s | s | s | s | der
  all_goals simp [buildSan, extSan, GeneralName.map, GeneralName.Written, asn1StringSet_eq_iff]

/-- What is written is determined by the contents. -/
theorem GeneralName.Written.buildSan_eq {n : GeneralName ListU8} (h : n.Written) :
    buildSan n = (n.map ListU8.bytes).toAsn := by
  rcases n with s | s | s | s | der
  case other => exact h.elim
  all_goals
    have hs := (asn1StringSet_eq_iff s).mpr h
    simp only [buildSan, GeneralName.map, GeneralName.toAsn, hs]

theorem GeneralName.WrittenDns.written {n : GeneralName ListU8} (h : n.WrittenDns) :
    n.Written := by
  rcases n with s | s | s | s | der
  · exact h
  all_goals exact h.elim

/-- Whether a name is written as it is shows in its contents. -/
theorem GeneralName.Written.of_map_eq {n m : GeneralName ListU8}
    (h : n.map ListU8.bytes = m.map ListU8.bytes) (hm : m.Written) : n.Written := by
  have hlen {s s' : ListU8} (hs : s.bytes = s'.bytes) : s.len = s'.len := by
    simpa using congrArg List.length hs
  -- names of different types have different contents, and DER is not written at all
  rcases n with s | s | s | s | s <;> rcases m with s' | s' | s' | s' | s' <;>
    simp only [GeneralName.map, GeneralName.dns.injEq, GeneralName.email.injEq,
      GeneralName.uri.injEq, GeneralName.ip.injEq, reduceCtorEq] at h
  case other.other => exact hm.elim
  all_goals simpa only [GeneralName.Written, hlen h] using hm

theorem csrSan_buildSan_iff (n : GeneralName ListU8) :
    (buildSan n).map (csrSan i2dGeneralName) = some (n.map ListU8.bytes) ↔ n.WrittenDns := by
  rcases n with s | s | s | s | der
  all_goals simp [buildSan, csrSan, GeneralName.map, GeneralName.WrittenDns, asn1StringSet_eq_iff]

theorem csrSan_eq_extSan_iff (gn : AsnGeneralName) :
    csrSan i2dGeneralName gn = extSan i2dGeneralName gn ↔ gn.ReadAlike := by
  rcases gn with s | s | s | s | der
  all_goals simp [csrSan, extSan, AsnGeneralName.ReadAlike]

theorem map_buildSans {γ : Type} (f : AsnGeneralName → γ) (sans : List (GeneralName ListU8)) :
    ((buildSans sans).getD []).map f = sans.filterMap fun n => (buildSan n).map f := by
  rw [buildSans]
  split
  · rename_i h
    rw [List.length_eq_zero_iff.mp h]
    rfl
  · rw [Option.getD_some, List.map_filterMap]

/-- A certificate gives back the names that it was built from exactly if each of them is written as
it is. -/
theorem extSans_buildSans_iff (sans : List (GeneralName ListU8)) :
    extSans i2dGeneralName (buildSans sans) = sans.map (·.map ListU8.bytes) ↔
      ∀ n ∈ sans, n.Written := by
  -- a name that is left out is missed in the list, so that names can be taken one by one
  rw [extSans, map_buildSans, List.filterMap_eq_map_iff_forall_eq_some]
  exact forall₂_congr fun n _ => extSan_buildSan_iff n

/-- A request gives back the names that it was built from exactly if they are DNS names that are
written as they are. -/
theorem csrSans_buildSans_iff (sans : List (GeneralName ListU8)) :
    csrSans i2dGeneralName (buildSans sans) = sans.map (·.map ListU8.bytes) ↔
      ∀ n ∈ sans, n.WrittenDns := by
  rw [csrSans, map_buildSans, List.filterMap_eq_map_iff_forall_eq_some]
  exact forall₂_congr fun n _ => csrSan_buildSan_iff n

/-- Lists with the same contents are written alike, if one of them is written as it is. -/
theorem buildSans_eq_of_map_eq {sans sans' : List (GeneralName ListU8)}
    (h : sans.map (·.map ListU8.bytes) = sans'.map (·.map ListU8.bytes))
    (hsans' : ∀ n ∈ sans', n.Written) :
    (buildSans sans).getD [] = (buildSans sans').getD [] := by
  have hsans : ∀ n ∈ sans, n.Written := by
    -- every name has one with its contents in the other list
    intro n hn
    have hmem := List.mem_map_of_mem (f := (·.map ListU8.bytes)) hn
    rw [h] at hmem
    obtain ⟨m, hm, hnm⟩ := List.mem_map.mp hmem
    exact (hsans' m hm).of_map_eq hnm.symm
  -- both are made from the contents alone
  have hwrite (l : List (GeneralName ListU8)) (hl : ∀ n ∈ l, n.Written) :
      (buildSans l).getD [] = (l.map (·.map ListU8.bytes)).filterMap GeneralName.toAsn := by
    have := map_buildSans id l
    rw [List.map_id] at this
    rw [this, List.filterMap_map]
    exact List.filterMap_congr fun n hn => by simp [(hl n hn).buildSan_eq]
  rw [hwrite sans hsans, hwrite sans' hsans', h]

/-- The readers agree on the names of a value exactly if they agree on each of them. -/
theorem csrSans_eq_extSans_iff (gens : List AsnGeneralName) :
    csrSans i2dGeneralName (some gens) = extSans i2dGeneralName (some gens) ↔
      ∀ gn ∈ gens, gn.ReadAlike := by
  rw [csrSans, extSans, Option.getD_some, List.map_inj_left]
  exact forall₂_congr fun gn _ => csrSan_eq_extSan_iff gn

end

end OpenSSLWasm.X509
