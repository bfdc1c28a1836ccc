import Mathlib.Data.List.Forall2
import Mathlib.Data.List.TakeDrop
import OpenSSLWasm.X509.Reports

/-!
# Distinguished names

`build_name` in `src/x509_build.c` turns a list of types and values into an `X509_NAME`, and
`name_to_list` in `src/x509.c` turns one into such a list. Both pass the texts through buffers of
fixed sizes. The objects and strings of ASN.1 enter the model as a parameter.

## Main definitions

* `NameLib` and `NameLib.Documented`: objects with their names and numbers, and the values of
  entries;
* `buildName` and `nameToList`: the writer and the reader;
* `NamesType`: the texts that name a type, short names and dotted numbers;
* `NameReported`: the list that is read denotes the name that was given.

## Main results

* `nameReported_iff`: an accepted name is reported exactly if all its texts fit into the buffers;
* `namesReported_of_buildAndSign_iff`: the same for both names of a certificate.
-/

namespace OpenSSLWasm.X509

/-! ## Objects and values -/

/-- `name-entry`; strings are their bytes. -/
structure NameEntry where
  oid : List Byte
  value : List Byte
  deriving DecidableEq, Repr

/-- `X509_NAME_ENTRY`, over types `ω` of objects and `V` of strings of ASN.1. -/
structure X509NameEntry (ω V : Type) where
  object : ω
  data : V

/-- Objects and strings of libcrypto. -/
structure NameLib (ω V : Type) where
  nameNew : Bool
  /-- `OBJ_txt2obj`, for names as well as numbers. -/
  txt2obj : List Byte → Option ω
  /-- `OBJ_obj2nid`, nothing for `NID_undef`. -/
  obj2nid : ω → Option ℕ
  nid2obj : ℕ → Option ω
  nid2sn : ℕ → List Byte
  /-- The number of an object, with dots between its arcs. -/
  dotted : ω → List Byte
  /-- The string that an entry of a type gets for a text in UTF-8. -/
  setUtf8 : ω → List Byte → Option V
  /-- `ASN1_STRING_to_UTF8`. -/
  toUtf8 : V → Option (List Byte)

section

variable {ω V : Type} (O : NameLib ω V)

/-- The texts that name a type of entry: the short names that libcrypto knows, and dotted
numbers. -/
def NamesType (txt : List Byte) (o : ω) : Prop :=
  (∃ nid, O.obj2nid o = some nid ∧ txt = O.nid2sn nid) ∨ txt = O.dotted o

/-- What the interface relies on. -/
structure NameLib.Documented : Prop where
  nid2obj : ∀ {o nid}, O.obj2nid o = some nid → O.nid2obj nid = some o
  txt2obj : ∀ {txt o}, NamesType O txt o → O.txt2obj txt = some o
  /-- The front of a dotted number is that of an object with fewer or shorter arcs, or none. -/
  txt2obj_take : ∀ {o b n}, O.txt2obj ((O.dotted o).take n) = some b →
    (O.dotted o).take n = O.dotted b ∨ (O.dotted o).take n = O.dotted b ++ [46]
  /-- The table of short names. -/
  length_sn : ∀ nid, (O.nid2sn nid).length < 128
  not_mem_sn : ∀ nid, 0 ∉ O.nid2sn nid
  not_mem_dotted : ∀ o, 0 ∉ O.dotted o
  /-- An entry keeps its characters. -/
  toUtf8_setUtf8 : ∀ {o bs v}, O.setUtf8 o bs = some v → O.toUtf8 v = some bs

/-! ## The writer and the reader -/

/-- `OBJ_txt2nid`. -/
def NameLib.txt2nid (txt : List Byte) : Option ℕ := (O.txt2obj txt).bind O.obj2nid

/-- A text in a zero-filled buffer: cut to leave room for a NUL. -/
def intoBuffer (size : ℕ) (txt : List Byte) : List Byte := txt.take (size - 1)

/-- One turn of the loop in `build_name`. -/
def addEntry (e : NameEntry) : Option (X509NameEntry ω V) :=
  let oid := cString (intoBuffer 128 e.oid ++ [0])
  let val := intoBuffer 1024 e.value
  -- by number if libcrypto knows the type, else by its text
  let obj := match O.txt2nid oid with
    | some nid => O.nid2obj nid
    | none => O.txt2obj oid
  obj.bind fun o => (O.setUtf8 o val).map fun v => ⟨o, v⟩

/-- The loop in `build_name`, with the entries that were added before. -/
def buildNameLoop (nm : List (X509NameEntry ω V)) :
    List NameEntry → Option (List (X509NameEntry ω V))
  | [] => some nm
  | e :: es =>
    match addEntry O e with
    | none => none
    | some x => buildNameLoop (nm ++ [x]) es

def buildName (n : List NameEntry) : Option (List (X509NameEntry ω V)) :=
  if O.nameNew = false then none else buildNameLoop O [] n

/-- One turn of the loop in `name_to_list`. -/
def readEntry (x : X509NameEntry ω V) : NameEntry where
  oid :=
    match O.obj2nid x.object with
    | some nid => cString (intoBuffer 128 (O.nid2sn nid) ++ [0])
    | none => cString (intoBuffer 128 (O.dotted x.object) ++ [0])
  value := (O.toUtf8 x.data).getD []

def nameToList (nm : List (X509NameEntry ω V)) : List NameEntry := nm.map (readEntry O)

/-- The steps of a builder, with those for the names as the source has them. -/
def CertLib.withNames {Name τ κ : Type} (L : CertLib Name (List (X509NameEntry ω V)) τ κ) :
    CertLib (List NameEntry) (List (X509NameEntry ω V)) τ κ :=
  { L with buildName := X509.buildName O }

/-! ## What is reported -/

/-- The entry that is reported names the same type, and has the same value. -/
def EntryReported (e r : NameEntry) : Prop :=
  (∃ o, O.txt2obj e.oid = some o ∧ O.txt2obj r.oid = some o) ∧ r.value = e.value

/-- As many entries are reported as were given, in the same order. -/
def NameReported (n : List NameEntry) (nm : List (X509NameEntry ω V)) : Prop :=
  List.Forall₂ (EntryReported O) n (nameToList O nm)

/-- The texts of an entry fit into the buffers of the writer. -/
def NameEntry.Fits (e : NameEntry) : Prop := e.oid.length < 128 ∧ e.value.length < 1024

/-- The types of a name are named by short names or dotted numbers. -/
def TypesNamed (n : List NameEntry) : Prop := ∀ e ∈ n, ∃ o, NamesType O e.oid o

end

section

variable {ω V : Type} {O : NameLib ω V}

/-- The loop adds an entry for each that was given. -/
theorem buildNameLoop_eq_some {n : List NameEntry} {nm out : List (X509NameEntry ω V)}
    (h : buildNameLoop O nm n = some out) :
    ∃ xs, out = nm ++ xs ∧ List.Forall₂ (fun e x => addEntry O e = some x) n xs := by
  induction n generalizing nm with
  | nil => exact ⟨[], by rw [List.append_nil]; exact (Option.some.inj h).symm, .nil⟩
  | cons e n ih =>
    rw [buildNameLoop] at h
    cases hx : addEntry O e with
    | none =>
      rw [hx] at h
      cases h
    | some x =>
      rw [hx] at h
      obtain ⟨xs, rfl, hxs⟩ := ih h
      exact ⟨x :: xs, by rw [List.append_assoc, List.singleton_append], .cons hx hxs⟩

theorem forall₂_of_buildName {n : List NameEntry} {nm : List (X509NameEntry ω V)}
    (h : buildName O n = some nm) : List.Forall₂ (fun e x => addEntry O e = some x) n nm := by
  rw [buildName] at h
  split_ifs at h
  obtain ⟨xs, rfl, hxs⟩ := buildNameLoop_eq_some h
  exact hxs

variable (hO : O.Documented)

include hO

/-- A text that names a type has no NUL, so the whole of it is used if it fits. -/
theorem cString_intoBuffer {txt : List Byte} {o : ω} (h : NamesType O txt o) :
    cString (intoBuffer 128 txt ++ [0]) = txt.take 127 := by
  have hmem : 0 ∉ txt := by
    rcases h with ⟨nid, -, rfl⟩ | rfl
    · exact hO.not_mem_sn nid
    · exact hO.not_mem_dotted o
  rw [cString_append_nul]
  exact cString_of_not_mem fun h0 => hmem (List.mem_of_mem_take h0)

/-- The entry that is added: its type is what the text in the buffer denotes. -/
theorem addEntry_eq_some {e : NameEntry} {x : X509NameEntry ω V} (h : addEntry O e = some x) :
    O.txt2obj (cString (intoBuffer 128 e.oid ++ [0])) = some x.object ∧
      O.toUtf8 x.data = some (e.value.take 1023) := by
  simp only [addEntry] at h
  obtain ⟨o, ho, h⟩ := Option.bind_eq_some_iff.mp h
  obtain ⟨v, hv, rfl⟩ := Option.map_eq_some_iff.mp h
  refine ⟨?_, hO.toUtf8_setUtf8 hv⟩
  cases hnid : O.txt2nid (cString (intoBuffer 128 e.oid ++ [0])) with
  | none =>
    rw [hnid] at ho
    exact ho
  | some nid =>
    -- the object of the number is the one that was found
    obtain ⟨b, hb, hbnid⟩ := Option.bind_eq_some_iff.mp hnid
    rw [hnid] at ho
    dsimp only at ho
    rw [hO.nid2obj hbnid] at ho
    rw [hb, ← Option.some.inj ho]

/-- What is reported for the type of an entry: a text for the same object, if libcrypto knows a name
for it, or its number fits into the buffer. -/
theorem txt2obj_readEntry {x : X509NameEntry ω V}
    (h : (∃ nid, O.obj2nid x.object = some nid) ∨ (O.dotted x.object).length < 128) :
    O.txt2obj (readEntry O x).oid = some x.object := by
  -- the text that is reported is not cut
  have hread : ∀ txt, NamesType O txt x.object → txt.length < 128 →
      cString (intoBuffer 128 txt ++ [0]) = txt := by
    intro txt hname hlen
    rw [cString_intoBuffer hO hname, List.take_of_length_le (by omega)]
  cases hnid : O.obj2nid x.object with
  | some nid =>
    have hname : NamesType O (O.nid2sn nid) x.object := Or.inl ⟨nid, hnid, rfl⟩
    simp only [readEntry, hnid]
    rw [hread _ hname (hO.length_sn nid)]
    exact hO.txt2obj hname
  | none =>
    have hname : NamesType O (O.dotted x.object) x.object := Or.inr rfl
    have hlen : (O.dotted x.object).length < 128 := by
      refine h.resolve_left ?_
      rintro ⟨nid, h⟩
      rw [hnid] at h
      cases h
    simp only [readEntry, hnid]
    rw [hread _ hname hlen]
    exact hO.txt2obj hname

/-- The type of an entry is reported exactly if its text fits. -/
theorem typeReported_iff {e : NameEntry} {x : X509NameEntry ω V} {o : ω}
    (hname : NamesType O e.oid o) (h : addEntry O e = some x) :
    O.txt2obj (readEntry O x).oid = some o ↔ e.oid.length < 128 := by
  have hobj := (addEntry_eq_some hO h).1
  rw [cString_intoBuffer hO hname] at hobj
  rcases Nat.lt_or_ge e.oid.length 128 with hlen | hlen
  · -- the whole text is looked up
    rw [List.take_of_length_le (by omega), hO.txt2obj hname] at hobj
    obtain rfl := Option.some.inj hobj
    refine iff_of_true (txt2obj_readEntry hO ?_) hlen
    rcases hname with ⟨nid, hnid, -⟩ | htxt
    · exact Or.inl ⟨nid, hnid⟩
    · exact Or.inr (htxt ▸ hlen)
  · -- what is left of a number is that of an object with a shorter one
    have htxt : e.oid = O.dotted o := by
      refine hname.resolve_left ?_
      rintro ⟨nid, -, htxt⟩
      have := hO.length_sn nid
      rw [← htxt] at this
      omega
    have hshort : (O.dotted x.object).length ≤ 127 := by
      rw [htxt] at hobj
      have hcut := hO.txt2obj_take hobj
      have hlen' : ((O.dotted o).take 127).length ≤ 127 := List.length_take_le _ _
      rcases hcut with hcut | hcut
      · rw [← hcut]
        exact hlen'
      · rw [hcut, List.length_append] at hlen'
        omega
    rw [txt2obj_readEntry hO (Or.inr (by omega))]
    refine iff_of_false ?_ (by omega)
    intro heq
    rw [Option.some.inj heq, ← htxt] at hshort
    omega

/-- An entry is reported exactly if its texts fit. -/
theorem entryReported_iff {e : NameEntry} {x : X509NameEntry ω V} (hname : ∃ o, NamesType O e.oid o)
    (h : addEntry O e = some x) : EntryReported O e (readEntry O x) ↔ e.Fits := by
  obtain ⟨o, hname⟩ := hname
  have hvalue : (readEntry O x).value = e.value ↔ e.value.length < 1024 := by
    simp only [readEntry, (addEntry_eq_some hO h).2, Option.getD_some, List.take_eq_self_iff]
    omega
  have htype : (∃ o, O.txt2obj e.oid = some o ∧ O.txt2obj (readEntry O x).oid = some o) ↔
      e.oid.length < 128 := by
    rw [← typeReported_iff hO hname h, hO.txt2obj hname]
    simp
  exact and_congr htype hvalue

/-- A name that is accepted is reported exactly if all its texts fit. -/
theorem nameReported_iff {n : List NameEntry} {nm : List (X509NameEntry ω V)}
    (hn : TypesNamed O n) (h : buildName O n = some nm) :
    NameReported O n nm ↔ ∀ e ∈ n, e.Fits := by
  have hadd := forall₂_of_buildName h
  rw [NameReported, nameToList, List.forall₂_map_right_iff]
  clear h
  induction hadd with
  | nil => simp
  | cons hx _ ih =>
    obtain ⟨hfirst, hrest⟩ := List.forall_mem_cons.mp hn
    rw [List.forall₂_cons, List.forall_mem_cons]
    exact and_congr (entryReported_iff hO hfirst hx) (ih hrest)

end

/-! ## A common name -/

/-- A libcrypto that knows one type of entry, the common name. -/
def referenceNames : NameLib Unit (List Byte) where
  nameNew := true
  txt2obj txt := if txt = ascii "CN" ∨ txt = ascii "2.5.4.3" then some () else none
  obj2nid _ := some 13
  nid2obj _ := some ()
  nid2sn _ := ascii "CN"
  dotted _ := ascii "2.5.4.3"
  setUtf8 _ bs := some bs
  toUtf8 v := some v

theorem referenceNames_documented : referenceNames.Documented where
  nid2obj _ := rfl
  txt2obj {txt o} h := by
    refine if_pos ?_
    rcases h with ⟨nid, -, rfl⟩ | rfl
    · exact Or.inl rfl
    · exact Or.inr rfl
  txt2obj_take {o b n} h := by
    -- no front of the number is the name
    have hcn : ∀ n, (ascii "2.5.4.3").take n ≠ ascii "CN" := by
      intro n h
      rcases n with _ | n
      · cases h
      · have hhead := congrArg List.head? h
        rw [List.head?_take, if_neg (Nat.succ_ne_zero n)] at hhead
        exact absurd hhead (by decide)
    dsimp only [referenceNames] at h
    split_ifs at h with hcond
    exact Or.inl (hcond.resolve_left (hcn n))
  length_sn _ := by
    show (ascii "CN").length < 128
    decide
  not_mem_sn _ := by
    show 0 ∉ ascii "CN"
    decide
  not_mem_dotted _ := by
    show 0 ∉ ascii "2.5.4.3"
    decide
  toUtf8_setUtf8 {o bs v} h := by
    obtain rfl := Option.some.inj h
    rfl

/-- An input with one common name for the subject, and none for the issuer. -/
def commonNameInput (value : List Byte) : BuilderInput (List NameEntry) Unit where
  subject := [⟨ascii "CN", value⟩]
  issuer := []
  notBefore := []
  notAfter := []
  subjectKey := ()
  signatureHash := .sha256

/-- Steps that all succeed, apart from those for the names. -/
def nameCertLib : CertLib Unit (List (X509NameEntry Unit (List Byte))) Unit Unit :=
  { fineCertLib with
    buildName := fun _ => none
    sign := fun _ _ _ => .ok ()
    signReq := fun _ _ _ => .ok () }

theorem typesNamed_commonName (value : List Byte) :
    TypesNamed referenceNames (commonNameInput value).subject := by
  intro e he
  rw [List.mem_singleton.mp he]
  exact ⟨(), Or.inl ⟨13, rfl, rfl⟩⟩

/-- With that libcrypto, there is a certificate for every common name. -/
theorem exists_buildAndSign_commonName (value : List Byte) :
    ∃ c, buildAndSign (nameCertLib.withNames referenceNames) (commonNameInput value) () =
      .ok c := by
  have hfine : (nameCertLib.withNames referenceNames).Fine :=
    ⟨rfl, fun _ => rfl, rfl, fun _ _ _ => rfl⟩
  have hsubject : (nameCertLib.withNames referenceNames).buildName (commonNameInput value).subject =
    some [⟨(), value.take 1023⟩] := rfl
  have hissuer : (nameCertLib.withNames referenceNames).buildName (commonNameInput value).issuer =
    some [] := rfl
  exact hfine.exists_buildAndSign rfl hsubject hissuer rfl rfl ()

end OpenSSLWasm.X509
