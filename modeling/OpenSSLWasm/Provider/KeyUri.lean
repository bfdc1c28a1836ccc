import OpenSSLWasm.Lib.Search
import OpenSSLWasm.Support

/-!
# Key URIs

`pkey.from-wit-bridge-uri` in `src/pkey.c` asks for a key manager by name, EC or RSA, before the bridge
knows what the URI means. It looks for the text `algorithm=` in the URI. A URI has attributes, of
which one may be named `algorithm`.

## Main definitions

* `kmName`: the choice of the code;
* `KeyUri` and `KeyUri.text`: URIs as a scheme and attributes, and as a string;
* `KeyUri.AsksRsa`: what the attribute `algorithm` asks for;
* `Attribute.shown`, `visible` and `decider`: where the text occurs, what is in front of a NUL, and
  the first attribute there that has the text;
* `KeyUri.Clear`: that one is the attribute `algorithm`, or says the same.

## Main results

* `kmName_text`: the first attribute with the text decides, whatever its name;
* `choosesByAlgorithm_iff`: when that is what the attribute `algorithm` asks for;
* `clear_of_forall`: then the order of the attributes does not matter.
-/

namespace OpenSSLWasm.Provider

/-! ## The choice -/

/-- The key managers of the bridge. -/
inductive KmName
  | ec
  | rsa
  deriving DecidableEq, Repr

/-- The text that is looked for. -/
def algorithmEq : List Byte := ascii "algorithm" ++ [0x3d]

/-- The comparison of three characters, with both cases of each. -/
def startsRsa : List Byte → Bool
  | p0 :: p1 :: p2 :: _ =>
    (p0 = 0x72 ∨ p0 = 0x52) ∧ (p1 = 0x73 ∨ p1 = 0x53) ∧ (p2 = 0x61 ∨ p2 = 0x41)
  | _ => false

/-- `km_name`, for a copy of the URI that ends with a NUL. -/
def kmName (uri : List Byte) : KmName :=
  let uriC := cString (uri ++ [0])
  -- `strstr`
  match Search.locate algorithmEq uriC with
  | some p => if startsRsa (p.drop algorithmEq.length) then .rsa else .ec
  | none => .ec

/-! ## URIs -/

/-- What separates the attributes. -/
inductive Separator
  | semicolon
  | question
  | ampersand
  deriving DecidableEq, Repr

def Separator.byte : Separator → Byte
  | semicolon => 0x3b
  | question => 0x3f
  | ampersand => 0x26

/-- A name, which ends at the equals sign, and a value, which ends at a separator. -/
structure Attribute where
  name : List Byte
  value : List Byte
  equals_notMem_name : 0x3d ∉ name
  byte_notMem_name : ∀ s : Separator, s.byte ∉ name
  byte_notMem_value : ∀ s : Separator, s.byte ∉ value

def Attribute.text (a : Attribute) : List Byte := a.name ++ 0x3d :: a.value

/-- A scheme, and behind its colon the attributes. There may be a separator right behind the colon. -/
structure KeyUri where
  scheme : List Byte
  first : Option Attribute
  rest : List (Separator × Attribute)
  scheme_plain : 0 ∉ scheme ∧ 0x3a ∉ scheme ∧ 0x3d ∉ scheme

def restText (rest : List (Separator × Attribute)) : List Byte :=
  rest.flatMap fun (s, a) => s.byte :: a.text

namespace KeyUri

def attributes (u : KeyUri) : List Attribute := u.first.toList ++ u.rest.map Prod.snd

def text (u : KeyUri) : List Byte :=
  u.scheme ++ 0x3a :: ((u.first.map Attribute.text).getD [] ++ restText u.rest)

end KeyUri

/-- In lower case. -/
def asciiLower (b : Byte) : Byte := if 0x41 ≤ b ∧ b ≤ 0x5a then b + 0x20 else b

/-- The value begins with `rsa`, in any letter case. -/
def BeginsWithRsa (v : List Byte) : Prop := (v.take 3).map asciiLower = ascii "rsa"

instance (v : List Byte) : Decidable (BeginsWithRsa v) :=
  inferInstanceAs (Decidable ((v.take 3).map asciiLower = ascii "rsa"))

/-- What the attribute with exactly the name `algorithm` asks for. -/
def KeyUri.AsksRsa (u : KeyUri) : Prop :=
  ∃ a ∈ u.attributes.find? (·.name = ascii "algorithm"), BeginsWithRsa a.value

instance (u : KeyUri) : Decidable u.AsksRsa :=
  inferInstanceAs (Decidable (∃ a ∈ u.attributes.find? (·.name = ascii "algorithm"),
    BeginsWithRsa a.value))

/-- The choice is what the attribute asks for. -/
def KeyUri.ChoosesByAlgorithm (u : KeyUri) : Prop := kmName u.text = .rsa ↔ u.AsksRsa

/-! ## What is seen of a URI -/

/-- What follows the text in an attribute: behind a name that ends with `algorithm`, or else in the
value. -/
def Attribute.shown (a : Attribute) : Option (List Byte) :=
  if ascii "algorithm" <:+ a.name then some a.value else Search.after algorithmEq a.value

/-- The value up to a NUL. -/
def Attribute.cut (a : Attribute) : Attribute where
  name := a.name
  value := cString a.value
  equals_notMem_name := a.equals_notMem_name
  byte_notMem_name := a.byte_notMem_name
  byte_notMem_value s hs := a.byte_notMem_value s ((List.takeWhile_sublist _).subset hs)

/-- The attributes up to a NUL. -/
def visible : List Attribute → List Attribute
  | [] => []
  | a :: as =>
    if a.name.contains 0 then [] else if a.value.contains 0 then [a.cut] else a :: visible as

theorem visible_cons (a : Attribute) (as : List Attribute) :
    visible (a :: as) =
      if 0 ∈ a.name then [] else if 0 ∈ a.value then [a.cut] else a :: visible as := by
  simp [visible]

/-- The first attribute that has the text. -/
def decider (as : List Attribute) : Option Attribute := (visible as).find? (·.shown.isSome)

/-- The first attribute with the text is the one with the name, or what follows the text says the
same. If there is none, RSA is not asked for either, behind a NUL. -/
def KeyUri.Clear (u : KeyUri) : Prop :=
  match decider u.attributes with
  | some a => a.name = ascii "algorithm" ∨ (BeginsWithRsa (a.shown.getD []) ↔ u.AsksRsa)
  | none => ¬u.AsksRsa

/-! ## Three characters -/

theorem asciiLower_eq_iff {b x : Byte} (hx : 0x61 ≤ x ∧ x ≤ 0x7a) :
    asciiLower b = x ↔ b = x ∨ b = x - 0x20 := by
  rw [asciiLower]
  split_ifs <;> bv_omega

theorem startsRsa_iff (p : List Byte) : startsRsa p = true ↔ BeginsWithRsa p := by
  have hr (b : Byte) : asciiLower b = 0x72 ↔ b = 0x72 ∨ b = 0x52 := asciiLower_eq_iff (by decide)
  have hs (b : Byte) : asciiLower b = 0x73 ↔ b = 0x73 ∨ b = 0x53 := asciiLower_eq_iff (by decide)
  have ha (b : Byte) : asciiLower b = 0x61 ↔ b = 0x61 ∨ b = 0x41 := asciiLower_eq_iff (by decide)
  have hrsa : ascii "rsa" = [0x72, 0x73, 0x61] := by decide
  rw [BeginsWithRsa, hrsa]
  rcases p with _ | ⟨p0, _ | ⟨p1, _ | ⟨p2, p⟩⟩⟩
  · simp [startsRsa]
  · simp [startsRsa]
  · simp [startsRsa]
  · show decide _ = true ↔ [asciiLower p0, asciiLower p1, asciiLower p2] = [0x72, 0x73, 0x61]
    simp only [decide_eq_true_eq, List.cons.injEq, and_true, hr, hs, ha]

/-- Nothing behind a character that is none of these letters matters. -/
theorem startsRsa_append_cons {x : Byte} (hx : x ∉ [0x72, 0x73, 0x61, 0x52, 0x53, 0x41])
    (v r : List Byte) : startsRsa (v ++ x :: r) = startsRsa v := by
  simp only [List.mem_cons, List.not_mem_nil, or_false, not_or] at hx
  obtain ⟨hr, hs, ha, hR, hS, hA⟩ := hx
  rcases v with _ | ⟨p0, _ | ⟨p1, _ | ⟨p2, p⟩⟩⟩
  · rcases r with _ | ⟨r0, _ | ⟨r1, r⟩⟩
    · rfl
    · rfl
    · exact decide_eq_false fun h => h.1.elim hr hR
  · rcases r with _ | ⟨r0, r⟩
    · rfl
    · exact decide_eq_false fun h => h.2.1.elim hs hS
  · exact decide_eq_false fun h => h.2.2.elim ha hA
  · rfl

theorem startsRsa_cString (v : List Byte) : startsRsa (cString v) = startsRsa v := by
  by_cases h0 : 0 ∈ v
  · obtain ⟨l, r, rfl, hl⟩ := List.eq_append_cons_of_mem h0
    rw [cString_append_nul_cons, cString_of_not_mem hl, startsRsa_append_cons (by decide)]
  · rw [cString_of_not_mem h0]

theorem beginsWithRsa_cString (v : List Byte) : BeginsWithRsa (cString v) ↔ BeginsWithRsa v := by
  rw [← startsRsa_iff, ← startsRsa_iff, startsRsa_cString]

/-! ## The search -/

theorem kmName_eq_rsa_iff (uri : List Byte) :
    kmName uri = .rsa ↔
      (Search.after algorithmEq (cString uri)).map startsRsa = some true := by
  rw [kmName, cString_append_nul, Search.after]
  rcases Search.locate algorithmEq (cString uri) with _ | p
  · simp
  · by_cases h : startsRsa (p.drop algorithmEq.length) <;> simp [h]

theorem after_text (a : Attribute) : Search.after algorithmEq a.text = a.shown :=
  Search.after_append_mark (by decide) a.equals_notMem_name

theorem algorithmEq_eq :
    algorithmEq = [0x61, 0x6c, 0x67, 0x6f, 0x72, 0x69, 0x74, 0x68, 0x6d, 0x3d] := by
  decide

theorem algorithmEq_ne_nil : algorithmEq ≠ [] := List.append_ne_nil_of_right_ne_nil _ (by decide)

theorem byte_notMem_algorithmEq (s : Separator) : s.byte ∉ algorithmEq := by
  rw [algorithmEq_eq]
  cases s <;> decide

theorem equals_mem_algorithmEq : 0x3d ∈ algorithmEq := by
  rw [algorithmEq, List.mem_append]
  exact Or.inr List.mem_cons_self

/-- The text cannot begin in front of a separator and end behind it. -/
theorem after_separator (s : Separator) (l : List Byte) :
    Search.after algorithmEq (s.byte :: l) = Search.after algorithmEq l := by
  rw [← List.nil_append (s.byte :: l),
    Search.after_append_cons algorithmEq_ne_nil (byte_notMem_algorithmEq s),
    Search.after_nil algorithmEq_ne_nil, Option.map_none, Option.none_or]

theorem cString_restText_cons (s : Separator) (a : Attribute) (rest : List (Separator × Attribute)) :
    cString (restText ((s, a) :: rest)) = s.byte :: cString (a.text ++ restText rest) := by
  have hnul : 0 ∉ [s.byte] := by cases s <;> decide
  rw [restText, List.flatMap_cons, List.cons_append, ← List.singleton_append,
    cString_append_of_not_mem hnul]
  rfl

/-! ## The first attribute with the text -/

/-- What follows the text in the first attribute that has it. -/
def firstShown (as : List Attribute) : Option (List Byte) := (decider as).bind Attribute.shown

section

variable {a : Attribute} (as : List Attribute)

theorem firstShown_of_mem_name (hname : 0 ∈ a.name) : firstShown (a :: as) = none := by
  rw [firstShown, decider, visible_cons, if_pos hname]
  rfl

theorem firstShown_of_mem_value (hname : 0 ∉ a.name) (hvalue : 0 ∈ a.value) :
    firstShown (a :: as) = a.cut.shown := by
  rw [firstShown, decider, visible_cons, if_neg hname, if_pos hvalue, List.find?_cons]
  cases h : a.cut.shown with
  | none => simp
  | some v => simp [h]

theorem firstShown_cons (hname : 0 ∉ a.name) (hvalue : 0 ∉ a.value) :
    firstShown (a :: as) = a.shown.or (firstShown as) := by
  rw [firstShown, decider, visible_cons, if_neg hname, if_neg hvalue, List.find?_cons]
  cases h : a.shown with
  | none => simp [firstShown, decider]
  | some v => simp [h]

end

section

variable (a : Attribute) (rest : List (Separator × Attribute))

/-- Of a name that is cut off, there is no equals sign. -/
theorem after_of_mem_name (hname : 0 ∈ a.name) :
    Search.after algorithmEq (cString (a.text ++ restText rest)) = none := by
  rw [Attribute.text, List.append_assoc, cString_append_of_mem hname]
  refine Search.after_eq_none_of_notMem equals_mem_algorithmEq fun h => ?_
  exact a.equals_notMem_name ((List.takeWhile_sublist _).subset h)

theorem after_of_mem_value (hname : 0 ∉ a.name) (hvalue : 0 ∈ a.value) :
    Search.after algorithmEq (cString (a.text ++ restText rest)) = a.cut.shown := by
  have hcut : cString (a.text ++ restText rest) = a.cut.text := by
    rw [Attribute.text, List.append_assoc, cString_append_of_not_mem hname, List.cons_append,
      ← List.singleton_append, cString_append_of_not_mem (by decide),
      cString_append_of_mem hvalue]
    rfl
  rw [hcut, after_text]

/-- The search goes on behind an attribute that has not got the text. -/
theorem map_after_of_notMem (hname : 0 ∉ a.name) (hvalue : 0 ∉ a.value) :
    (Search.after algorithmEq (cString (a.text ++ restText rest))).map startsRsa =
      (a.shown.map startsRsa).or
        ((Search.after algorithmEq (cString (restText rest))).map startsRsa) := by
  have htext : 0 ∉ a.text := by
    rw [Attribute.text, List.mem_append, List.mem_cons, not_or, not_or]
    exact ⟨hname, by decide, hvalue⟩
  rw [cString_append_of_not_mem htext]
  rcases rest with _ | ⟨⟨s, a'⟩, rest⟩
  · simp [restText, cString, after_text, Search.after_nil algorithmEq_ne_nil]
  · -- what is behind the separator does not matter for three characters in front of it
    have hstarts : startsRsa ∘ (· ++ s.byte :: cString (a'.text ++ restText rest)) = startsRsa :=
      funext fun v => startsRsa_append_cons (by cases s <;> decide) v _
    rw [cString_restText_cons, after_separator,
      Search.after_append_cons algorithmEq_ne_nil (byte_notMem_algorithmEq s), after_text,
      Option.map_or, Option.map_map, hstarts]

/-- One more attribute in front of others. -/
theorem map_after_append_restText
    (ih : (Search.after algorithmEq (cString (restText rest))).map startsRsa =
      (firstShown (rest.map Prod.snd)).map startsRsa) :
    (Search.after algorithmEq (cString (a.text ++ restText rest))).map startsRsa =
      (firstShown (a :: rest.map Prod.snd)).map startsRsa := by
  by_cases hname : 0 ∈ a.name
  · -- nothing is seen from the name on
    rw [after_of_mem_name a rest hname, firstShown_of_mem_name _ hname]
  · by_cases hvalue : 0 ∈ a.value
    · -- the value is cut off, and nothing is seen behind it
      rw [after_of_mem_value a rest hname hvalue, firstShown_of_mem_value _ hname hvalue]
    · rw [map_after_of_notMem a rest hname hvalue, firstShown_cons _ hname hvalue, Option.map_or, ih]

end

theorem map_after_restText (rest : List (Separator × Attribute)) :
    (Search.after algorithmEq (cString (restText rest))).map startsRsa =
      (firstShown (rest.map Prod.snd)).map startsRsa := by
  induction rest with
  | nil => rw [restText, List.flatMap_nil, cString, List.takeWhile_nil,
      Search.after_nil algorithmEq_ne_nil]; rfl
  | cons p rest ih =>
    obtain ⟨s, a⟩ := p
    rw [cString_restText_cons, after_separator]
    exact map_after_append_restText a rest ih

/-- The first attribute with the text decides, whatever its name. -/
theorem kmName_text (u : KeyUri) :
    kmName u.text = .rsa ↔ ∃ v ∈ firstShown u.attributes, BeginsWithRsa v := by
  -- the search passes the scheme, which has no equals sign
  have hscheme : 0 ∉ u.scheme ++ [0x3a] := by
    rw [List.mem_append, not_or]
    exact ⟨u.scheme_plain.1, by decide⟩
  have hcolon : 0x3a ∉ algorithmEq := by
    rw [algorithmEq_eq]
    decide
  have hnone : Search.after algorithmEq u.scheme = none :=
    Search.after_eq_none_of_notMem equals_mem_algorithmEq u.scheme_plain.2.2
  have hbody : (Search.after algorithmEq (cString
      ((u.first.map Attribute.text).getD [] ++ restText u.rest))).map startsRsa =
        (firstShown u.attributes).map startsRsa := by
    rw [KeyUri.attributes]
    rcases u.first with _ | a
    · exact map_after_restText u.rest
    · exact map_after_append_restText a u.rest (map_after_restText u.rest)
  rw [kmName_eq_rsa_iff, KeyUri.text, ← List.singleton_append, ← List.append_assoc,
    cString_append_of_not_mem hscheme, List.append_assoc, List.singleton_append,
    Search.after_append_cons algorithmEq_ne_nil hcolon, hnone, Option.map_none, Option.none_or,
    hbody, Option.map_eq_some_iff]
  simp only [startsRsa_iff, Option.mem_def]

/-! ## The attribute with the name -/

theorem shown_of_name {a : Attribute} (h : a.name = ascii "algorithm") : a.shown = some a.value := by
  rw [Attribute.shown, h, if_pos (List.suffix_refl _)]

/-- If the attribute that decides has the name, it is the first that has it, up to a NUL. -/
theorem find?_of_decider {as : List Attribute} {a : Attribute} (h : decider as = some a)
    (hname : a.name = ascii "algorithm") :
    ∃ a', as.find? (·.name = ascii "algorithm") = some a' ∧
      (BeginsWithRsa a'.value ↔ BeginsWithRsa a.value) := by
  induction as with
  | nil => cases h
  | cons b as ih =>
    rw [decider, visible_cons] at h
    split_ifs at h with hbname hbvalue
    · -- nothing is visible
      cases h
    · -- the attribute is cut off, behind the name
      obtain rfl := List.mem_singleton.mp (List.mem_of_find?_eq_some h)
      have hb : b.name = ascii "algorithm" := hname
      exact ⟨b, by simp [hb], (beginsWithRsa_cString b.value).symm⟩
    · rw [List.find?_cons] at h
      cases hshown : b.shown with
      | some v =>
        simp only [hshown, Option.isSome_some, Option.some.injEq] at h
        subst h
        exact ⟨b, by simp [hname], Iff.rfl⟩
      | none =>
        have hb : b.name ≠ ascii "algorithm" := by
          intro hb
          rw [shown_of_name hb] at hshown
          cases hshown
        simp only [hshown, Option.isSome_none] at h
        obtain ⟨a', ha', hrsa⟩ := ih h
        exact ⟨a', by simp [hb, ha'], hrsa⟩

theorem asksRsa_of_decider {u : KeyUri} {a : Attribute} (h : decider u.attributes = some a)
    (hname : a.name = ascii "algorithm") : u.AsksRsa ↔ BeginsWithRsa a.value := by
  obtain ⟨a', ha', hrsa⟩ := find?_of_decider h hname
  simp only [KeyUri.AsksRsa, ha', Option.mem_def, Option.some.injEq, exists_eq_left', hrsa]

/-- The choice is what the attribute with the name asks for, exactly if the text does not occur
elsewhere first, with another answer. -/
theorem choosesByAlgorithm_iff (u : KeyUri) : u.ChoosesByAlgorithm ↔ u.Clear := by
  rw [KeyUri.ChoosesByAlgorithm, kmName_text, KeyUri.Clear, firstShown]
  cases h : decider u.attributes with
  | none => simp
  | some a =>
    have hsome : a.shown.isSome = true :=
      List.find?_some (p := fun a : Attribute => a.shown.isSome) h
    obtain ⟨v, hv⟩ := Option.isSome_iff_exists.mp hsome
    -- the attribute with the name says the same as itself
    by_cases hname : a.name = ascii "algorithm"
    · have hvalue : a.value = v := Option.some.inj ((shown_of_name hname).symm.trans hv)
      simp [hname, hv, asksRsa_of_decider h hname, hvalue]
    · simp [hname, hv]

/-- Where no other attribute has the text, and there is no NUL, the attributes can have any order. -/
theorem clear_of_forall {u : KeyUri} (hnul : ∀ a ∈ u.attributes, 0 ∉ a.name ∧ 0 ∉ a.value)
    (htext : ∀ a ∈ u.attributes, a.name ≠ ascii "algorithm" → a.shown = none) : u.Clear := by
  have hvisible : visible u.attributes = u.attributes := by
    generalize u.attributes = as at hnul
    induction as with
    | nil => rfl
    | cons a as ih =>
      obtain ⟨ha, has⟩ := List.forall_mem_cons.mp hnul
      rw [visible_cons, if_neg ha.1, if_neg ha.2, ih has]
  rw [KeyUri.Clear, decider, hvisible]
  cases h : u.attributes.find? (·.shown.isSome) with
  | none =>
    rintro ⟨a, ha, -⟩
    have hname := List.find?_some ha
    have hnone := List.find?_eq_none.mp h a (List.mem_of_find?_eq_some ha)
    rw [shown_of_name (of_decide_eq_true hname)] at hnone
    exact hnone rfl
  | some a =>
    left
    by_contra hname
    have hsome := List.find?_some h
    rw [htext a (List.mem_of_find?_eq_some h) hname] at hsome
    cases hsome

/-- Another attribute, the name of which ends with `algorithm`, in front of the one with the name. -/
def xAlgorithmUri : KeyUri where
  scheme := ascii "pkcs11"
  first := some
    { name := ascii "x-algorithm"
      value := ascii "rsa-2048"
      equals_notMem_name := by decide
      byte_notMem_name := by rintro (_ | _ | _) <;> decide
      byte_notMem_value := by rintro (_ | _ | _) <;> decide }
  rest := [(.semicolon,
    { name := ascii "algorithm"
      value := ascii "ecdsa-p256"
      equals_notMem_name := by decide
      byte_notMem_name := by rintro (_ | _ | _) <;> decide
      byte_notMem_value := by rintro (_ | _ | _) <;> decide })]
  scheme_plain := by decide

/-- RSA is chosen for `pkcs11:x-algorithm=rsa-2048;algorithm=ecdsa-p256`. -/
theorem not_choosesByAlgorithm_xAlgorithm : ¬xAlgorithmUri.ChoosesByAlgorithm := by
  intro h
  have hrsa : kmName xAlgorithmUri.text = .rsa := by decide
  exact absurd (h.mp hrsa) (by decide)

end OpenSSLWasm.Provider
