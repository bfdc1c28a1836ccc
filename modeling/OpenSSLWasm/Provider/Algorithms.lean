import Mathlib.Data.List.Forall2
import OpenSSLWasm.Support

/-!
# The algorithms that the bridge registers

OpenSSL asks a provider for its algorithms with a table for each operation. `src/provider_wit.c`
builds the tables of key managers and signatures from the lists of the provider that is composed in,
whose names are lists of aliases: the first one is to be registered, and chooses the functions that
go with it.

## Main definitions

* `WitAlgorithm` and `OsslAlgorithm`: an entry of the provider, and one of a table;
* `buildKeymgmtAlgos` and `buildSignatureAlgos`: the tables, which are built once;
* `firstAlias`: the name under which an entry is to be registered.

## Main results

* `firstAliasRegistered_iff`: an entry is registered under its first alias exactly if it has no
  other, as far as its names fit the slot.
-/

namespace OpenSSLWasm.Provider

/-- `ossl-algorithm`, as far as it is read. -/
structure WitAlgorithm where
  /-- Names that are separated by colons. -/
  algorithmNames : List Byte
  propertyDefinition : List Byte
  deriving DecidableEq, Repr

/-- An `OSSL_ALGORITHM` with functions from `D`; names and properties are slots of static memory
that hold a C string. -/
structure OsslAlgorithm (D : Type) where
  algorithmNames : List Byte
  propertyDefinition : List Byte
  implementation : D
  algorithmDescription : String
  deriving DecidableEq, Repr

/-- The functions of a key manager. -/
inductive KeymgmtDispatch
  | ec
  | rsa
  deriving DecidableEq, Repr

/-- The functions of a signature. -/
inductive SignatureDispatch
  | ecdsa
  | rsaPss
  deriving DecidableEq, Repr

/-- `RSA`. -/
def rsaName : List Byte := [82, 83, 65]

/-- `RSA-PSS`. -/
def rsaPssName : List Byte := [82, 83, 65, 45, 80, 83, 83]

/-- `:`. -/
def colon : Byte := 58

def witMaxAlgos : ℕ := 4

/-- The size of a slot. -/
def slotSize : ℕ := 64

/-! ## Building the tables -/

def dispatchForKeymgmtName (name : List Byte) : KeymgmtDispatch :=
  if cString name = rsaName then .rsa else .ec

def dispatchForSignatureName (name : List Byte) : SignatureDispatch :=
  if cString name = rsaPssName then .rsaPss else .ecdsa

/-- What the slot `dst` holds afterwards, up to the NUL that is written. -/
def strdupFirstAlias (dstSz : ℕ) (s : List Byte) : List Byte :=
  -- all names are copied, not only the first
  let n := if s.length < dstSz - 1 then s.length else dstSz - 1
  s.take n ++ [0]

section

variable {D : Type}

/-- One entry of a table. -/
def buildAlgo (dispatchFor : List Byte → D) (description : String) (a : WitAlgorithm) :
    OsslAlgorithm D where
  algorithmNames := strdupFirstAlias slotSize a.algorithmNames
  propertyDefinition := strdupFirstAlias slotSize a.propertyDefinition
  implementation := dispatchFor (strdupFirstAlias slotSize a.algorithmNames)
  algorithmDescription := description

/-- The body that the two builders share: the table of an earlier call, or one for the answer of the
provider, which is kept. The sentinel is the end of the list. -/
def buildAlgos (dispatchFor : List Byte → D) (description : String)
    (built : Option (List (OsslAlgorithm D))) (answer : List WitAlgorithm) :
    Option (List (OsslAlgorithm D)) × Option (List (OsslAlgorithm D)) :=
  match built with
  | some table => (some table, some table)
  | none =>
    if answer.length = 0 then (none, none)
    else
      -- what has no slot is left out
      let n := if answer.length < witMaxAlgos then answer.length else witMaxAlgos
      let table := (answer.take n).map (buildAlgo dispatchFor description)
      (some table, some table)

end

def buildKeymgmtAlgos := buildAlgos dispatchForKeymgmtName "wit-bridge keymgmt"

def buildSignatureAlgos := buildAlgos dispatchForSignatureName "wit-bridge signature"

/-! ## The names that are registered -/

/-- The first of the names. -/
def firstAlias (names : List Byte) : List Byte := names.takeWhile (· ≠ colon)

/-- The names, as far as they fit a slot, are a single one, without a NUL. -/
def SingleName (names : List Byte) : Prop :=
  colon ∉ names.take (slotSize - 1) ∧ 0 ∉ names.take (slotSize - 1)

/-- The entry has the name that is the first alias, as far as it fits a slot, and the functions
`special` exactly if the first alias is `name`. -/
def RegisteredAs {D : Type} (name : List Byte) (special : D) (a : WitAlgorithm)
    (e : OsslAlgorithm D) : Prop :=
  cString e.algorithmNames = (firstAlias a.algorithmNames).take (slotSize - 1) ∧
    (e.implementation = special ↔ firstAlias a.algorithmNames = name)

/-- The entries of the key managers that are kept have the name and the functions of their first
alias. -/
def KeymgmtRegistered (answer : List WitAlgorithm) : Prop :=
  ∀ table ∈ (buildKeymgmtAlgos none answer).1,
    List.Forall₂ (RegisteredAs rsaName .rsa) (answer.take witMaxAlgos) table

/-- The same for the signatures. -/
def SignatureRegistered (answer : List WitAlgorithm) : Prop :=
  ∀ table ∈ (buildSignatureAlgos none answer).1,
    List.Forall₂ (RegisteredAs rsaPssName .rsaPss) (answer.take witMaxAlgos) table

/-- Of a slot, OpenSSL reads the names up to the first NUL. -/
theorem cString_strdupFirstAlias (names : List Byte) :
    cString (strdupFirstAlias slotSize names) = cString (names.take (slotSize - 1)) := by
  rw [strdupFirstAlias, cString_append_nul]
  split
  next h => rw [List.take_length, List.take_of_length_le h.le]
  next => rfl

theorem takeWhile_ne_eq_iff {α : Type} [DecidableEq α] {a b : α} (hab : a ≠ b) (l : List α) :
    l.takeWhile (· ≠ a) = l.takeWhile (· ≠ b) ↔ a ∉ l ∧ b ∉ l := by
  induction l with
  | nil => simp
  | cons x l ih =>
    -- the two scans part at the first of the two bytes
    by_cases ha : x = a
    · simp [ha, hab]
    · by_cases hb : x = b
      · simp [hb, hab.symm]
      · simpa [ha, hb, Ne.symm ha, Ne.symm hb] using ih

/-- One entry: if the functions are chosen by the name that is registered, and `name` is a single
one that is shorter than a slot. -/
theorem registeredAs_buildAlgo_iff {D : Type} {name : List Byte} {special : D}
    {dispatchFor : List Byte → D} (description : String) (hlen : name.length < slotSize - 1)
    (hd : ∀ slot, dispatchFor slot = special ↔ cString slot = name) (a : WitAlgorithm) :
    RegisteredAs name special a (buildAlgo dispatchFor description a) ↔
      SingleName a.algorithmNames := by
  have hfirst : (firstAlias a.algorithmNames).take (slotSize - 1) =
      (a.algorithmNames.take (slotSize - 1)).takeWhile (· ≠ colon) := List.take_takeWhile
  rw [RegisteredAs, buildAlgo, hd, cString_strdupFirstAlias, hfirst, cString, SingleName]
  constructor
  · -- the slot ends at a NUL and the alias at a colon, so there is neither
    rintro ⟨hname, -⟩
    exact ((takeWhile_ne_eq_iff (by decide) _).mp hname).symm
  · rintro ⟨hc, h0⟩
    have hname := (takeWhile_ne_eq_iff (by decide) _).mpr ⟨h0, hc⟩
    refine ⟨hname, ?_⟩
    rw [hname, ← hfirst]
    constructor
    · -- a name that is shorter than a slot was not cut
      intro h
      rw [← h, List.take_of_length_le]
      have := congrArg List.length h
      rw [List.length_take] at this
      omega
    · intro h
      rw [h, List.take_of_length_le hlen.le]

/-- A table is the entries that are kept, one after the other. -/
theorem forall_buildAlgos_iff {D : Type} {R : WitAlgorithm → OsslAlgorithm D → Prop}
    (dispatchFor : List Byte → D) (description : String) (answer : List WitAlgorithm) :
    (∀ table ∈ (buildAlgos dispatchFor description none answer).1,
        List.Forall₂ R (answer.take witMaxAlgos) table) ↔
      ∀ a ∈ answer.take witMaxAlgos, R a (buildAlgo dispatchFor description a) := by
  rw [buildAlgos]
  by_cases hnil : answer.length = 0
  · -- no table is built, and nothing is kept
    obtain rfl := List.length_eq_zero_iff.mp hnil
    simp
  · have htake : answer.take (if answer.length < witMaxAlgos then answer.length else witMaxAlgos) =
        answer.take witMaxAlgos := by
      split
      next h => rw [List.take_length, List.take_of_length_le h.le]
      next => rfl
    simp only [if_neg hnil, htake, Option.mem_some_iff, forall_eq', List.forall₂_map_right_iff,
      List.forall₂_same]

theorem dispatchForKeymgmtName_eq_rsa (slot : List Byte) :
    dispatchForKeymgmtName slot = .rsa ↔ cString slot = rsaName := by
  rw [dispatchForKeymgmtName]
  split <;> simp [*]

theorem dispatchForSignatureName_eq_rsaPss (slot : List Byte) :
    dispatchForSignatureName slot = .rsaPss ↔ cString slot = rsaPssName := by
  rw [dispatchForSignatureName]
  split <;> simp [*]

/-- The entries of both tables are registered under their first alias, with its functions, exactly
if the names of each that is kept are a single one, as far as they fit a slot: nothing is cut off
at a colon. -/
theorem firstAliasRegistered_iff (answer : List WitAlgorithm) :
    (KeymgmtRegistered answer ↔ ∀ a ∈ answer.take witMaxAlgos, SingleName a.algorithmNames) ∧
      (SignatureRegistered answer ↔
        ∀ a ∈ answer.take witMaxAlgos, SingleName a.algorithmNames) := by
  constructor
  · rw [KeymgmtRegistered, buildKeymgmtAlgos, forall_buildAlgos_iff]
    refine forall₂_congr fun a _ => ?_
    exact registeredAs_buildAlgo_iff _ (by decide) dispatchForKeymgmtName_eq_rsa a
  · rw [SignatureRegistered, buildSignatureAlgos, forall_buildAlgos_iff]
    refine forall₂_congr fun a _ => ?_
    exact registeredAs_buildAlgo_iff _ (by decide) dispatchForSignatureName_eq_rsaPss a

/-- The names `RSA:rsaEncryption` and `RSA-PSS:RSASSA-PSS`: both entries get the functions for
elliptic curves. -/
theorem not_firstAliasRegistered_alias :
    ¬KeymgmtRegistered
        [⟨[82, 83, 65, 58, 114, 115, 97, 69, 110, 99, 114, 121, 112, 116, 105, 111, 110], []⟩] ∧
      ¬SignatureRegistered
        [⟨[82, 83, 65, 45, 80, 83, 83, 58, 82, 83, 65, 83, 83, 65, 45, 80, 83, 83], []⟩] := by
  refine ⟨fun h => ?_, fun h => ?_⟩
  · obtain ⟨⟨-, hrsa⟩, -⟩ := List.forall₂_cons.mp (h _ rfl)
    exact absurd (hrsa.mpr (by decide)) (by decide)
  · obtain ⟨⟨-, hrsa⟩, -⟩ := List.forall₂_cons.mp (h _ rfl)
    exact absurd (hrsa.mpr (by decide)) (by decide)

end OpenSSLWasm.Provider
