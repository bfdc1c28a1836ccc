import OpenSSLWasm.Lib.Transcript
import OpenSSLWasm.Provider.Algorithms
import OpenSSLWasm.Provider.Objects

/-!
# The tables of the bridge in memory

OpenSSL keeps pointers into the tables of algorithms that `wit_provider_query_operation` returns.
They are static arrays with slots for names and properties, filled once from what the provider that
is composed in answers, and that may be anything.

## Main definitions

* `Table`: the static memory of one operation;
* `Builder` and `Builder.build`: the body that the five builders share, as far as they do;
* `Query` and `step`: calls of `wit_provider_query_operation`;
* `Builder.Lists`: the memory holds a table of the first algorithms of an answer.

## Main results

* `Builder.exists_fill`: filling a table stays inside its memory;
* `Builder.exists_build`: what a builder does to what the memory may hold;
* `shows_keymgmt`, `shows_signature`: the memory holds the tables as they are listed elsewhere;
* `queries_listed`: every table that is returned lists an answer, and remains as it is.
-/

namespace OpenSSLWasm.Provider.Tables

open Transcript

/-! ## Memory -/

/-- The functions of all operations. -/
inductive Dispatch
  | keymgmt (d : KeymgmtDispatch)
  | signature (d : SignatureDispatch)
  | store
  | encoder
  | decoder
  deriving DecidableEq, Repr

/-- Where a string is: in the slot of a name or a property, or in the program. -/
inductive Str
  | name (i : ℕ)
  | propq (i : ℕ)
  | literal (s : List Byte)
  deriving DecidableEq, Repr

/-- An `OSSL_ALGORITHM` in an array; `none` is NULL. -/
structure Entry where
  algorithmNames : Option Str := none
  propertyDefinition : Option Str := none
  implementation : Option Dispatch := none
  algorithmDescription : Option String := none
  deriving DecidableEq, Repr

/-- The static memory of an operation. -/
structure Table where
  name : List (List Byte)
  propq : List (List Byte)
  algos : List Entry
  built : Bool := false
  deriving DecidableEq, Repr

/-- Write to an array; there is nothing behind its end. -/
def store? {α : Type} (l : List α) (i : ℕ) (a : α) : Option (List α) :=
  if i < l.length then some (l.set i a) else none

/-- Write to the start of a slot. -/
def overwrite (slot bytes : List Byte) : Option (List Byte) :=
  if bytes.length ≤ slot.length then some (bytes ++ slot.drop bytes.length) else none

/-- Write to the start of one of several slots. -/
def overwriteAt (slots : List (List Byte)) (i : ℕ) (bytes : List Byte) :
    Option (List (List Byte)) := do
  let slot ← slots[i]?
  let slot ← overwrite slot bytes
  store? slots i slot

/-! ## Builders -/

/-- What the builders differ in. -/
structure Builder where
  /-- The number of slots; the array has one entry more. -/
  max : ℕ
  max_pos : 0 < max
  slot : ℕ
  /-- What is written to a slot. -/
  copy : List Byte → List Byte
  copy_eq : ∀ s, copy s = s.take (slot - 1) ++ [0]
  slot_pos : 0 < slot
  /-- A property that all entries have, if it is not copied from the answer. -/
  property : Option (List Byte) := none
  dispatchFor : List Byte → Dispatch
  description : String
  /-- An empty answer is remembered. -/
  keepsEmpty : Bool

namespace Builder

variable (b : Builder)

/-- The memory at the start. -/
def zeroed : Table where
  name := List.replicate b.max (List.replicate b.slot 0)
  propq := if b.property.isSome then [] else List.replicate b.max (List.replicate b.slot 0)
  algos := List.replicate (b.max + 1) {}

/-- The entry for an algorithm. -/
def entry (i : ℕ) (a : WitAlgorithm) : Entry where
  algorithmNames := some (.name i)
  propertyDefinition := some ((b.property.map .literal).getD (.propq i))
  implementation := some (b.dispatchFor (b.copy a.algorithmNames))
  algorithmDescription := some b.description

/-- The property of an algorithm is copied, if it is not the same for all. -/
def copyProperty (propq : List (List Byte)) (i : ℕ) (a : WitAlgorithm) :
    Option (List (List Byte)) :=
  if b.property.isSome then some propq else overwriteAt propq i (b.copy a.propertyDefinition)

/-- The loop, from an index on, and the sentinel. -/
def fill (t : Table) (i : ℕ) : List WitAlgorithm → Option Table
  | [] => (store? t.algos i {}).map fun algos => { t with algos }
  | a :: as => do
    let name ← overwriteAt t.name i (b.copy a.algorithmNames)
    let propq ← b.copyProperty t.propq i a
    let algos ← store? t.algos i (b.entry i a)
    fill { t with name, propq, algos } (i + 1) as

/-- A builder, with the answer that it gets if it asks for one: whether it returns the table or
NULL. It is `none` if it accesses what is outside the memory. -/
def build (t : Table) (answer : List WitAlgorithm) : Option (Bool × Table) :=
  if t.built then
    if b.keepsEmpty then t.algos.head?.map fun e => (e.algorithmNames.isSome, t)
    else some (true, t)
  else if answer.length = 0 then some (false, { t with built := b.keepsEmpty })
  else
    let n := if answer.length < b.max then answer.length else b.max
    (b.fill t 0 (answer.take n)).map fun t => (true, { t with built := true })

end Builder

theorem strdupFirstAlias_eq (n : ℕ) (s : List Byte) :
    strdupFirstAlias n s = s.take (n - 1) ++ [0] := by
  rw [strdupFirstAlias]
  split
  next h => rw [List.take_length, List.take_of_length_le h.le]
  next => rfl

theorem copyToCstr_eq (n : ℕ) (s : List Byte) : copyToCstr n s = s.take (n - 1) ++ [0] := by
  rw [copyToCstr]
  rcases le_total s.length (n - 1) with h | h
  · rw [min_eq_left h, List.take_length, List.take_of_length_le h]
  · rw [min_eq_right h]

def keymgmtBuilder : Builder where
  max := witMaxAlgos
  max_pos := by decide
  slot := slotSize
  copy := strdupFirstAlias slotSize
  copy_eq := strdupFirstAlias_eq slotSize
  slot_pos := by decide
  dispatchFor name := .keymgmt (dispatchForKeymgmtName name)
  description := "wit-bridge keymgmt"
  keepsEmpty := false

def signatureBuilder : Builder where
  max := witMaxAlgos
  max_pos := by decide
  slot := slotSize
  copy := strdupFirstAlias slotSize
  copy_eq := strdupFirstAlias_eq slotSize
  slot_pos := by decide
  dispatchFor name := .signature (dispatchForSignatureName name)
  description := "wit-bridge signature"
  keepsEmpty := false

def witMaxStoreSchemes : ℕ := 4

def storeBuilder : Builder where
  max := witMaxStoreSchemes
  max_pos := by decide
  slot := 64
  copy := copyToCstr 64
  copy_eq := copyToCstr_eq 64
  slot_pos := by decide
  property := some (ascii "provider=wit-bridge")
  dispatchFor _ := .store
  description := "wit-bridge store loader"
  keepsEmpty := true

def witMaxEncoderAlgos : ℕ := 8

def encoderBuilder : Builder where
  max := witMaxEncoderAlgos
  max_pos := by decide
  slot := 96
  copy := copyToCstr 96
  copy_eq := copyToCstr_eq 96
  slot_pos := by decide
  dispatchFor _ := .encoder
  description := "wit-bridge encoder"
  keepsEmpty := true

def witMaxDecoderAlgos : ℕ := 8

def decoderBuilder : Builder where
  max := witMaxDecoderAlgos
  max_pos := by decide
  slot := 96
  copy := copyToCstr 96
  copy_eq := copyToCstr_eq 96
  slot_pos := by decide
  dispatchFor _ := .decoder
  description := "wit-bridge decoder"
  keepsEmpty := true

/-! ## Queries -/

/-- The operations that have tables. -/
inductive Operation
  | keymgmt
  | signature
  | store
  | encoder
  | decoder
  deriving DecidableEq, Repr

def Operation.builder : Operation → Builder
  | keymgmt => keymgmtBuilder
  | signature => signatureBuilder
  | store => storeBuilder
  | encoder => encoderBuilder
  | decoder => decoderBuilder

/-- A call of `wit_provider_query_operation`, with what the provider would answer. -/
inductive Query
  | keymgmt (answer : List WitAlgorithm)
  | signature (answer : List WitAlgorithm)
  /-- The answer to `supported-schemes`. -/
  | store (schemes : List (List Byte))
  | encoder (answer : List WitAlgorithm)
  | decoder (answer : List WitAlgorithm)
  /-- Another operation. -/
  | other
  deriving DecidableEq, Repr

namespace Query

def operation : Query → Option Operation
  | keymgmt _ => some .keymgmt
  | signature _ => some .signature
  | store _ => some .store
  | encoder _ => some .encoder
  | decoder _ => some .decoder
  | other => none

def answer : Query → List WitAlgorithm
  | keymgmt answer | signature answer | encoder answer | decoder answer => answer
  -- a scheme is a name without properties
  | store schemes => schemes.map fun s => ⟨s, []⟩
  | other => []

end Query

/-- What a call returns: NULL, or a pointer to a table with the contents that it has. -/
inductive Reply
  | fault
  | null
  | table (t : Table)
  deriving DecidableEq, Repr

/-- The memory of all operations. -/
abbrev State := Operation → Table

def State.zeroed : State := fun op => op.builder.zeroed

/-- `wit_provider_query_operation`. -/
def step (s : State) (q : Query) : Reply × State :=
  match q.operation with
  | none => (.null, s)
  | some op =>
    match op.builder.build (s op) q.answer with
    | none => (.fault, s)
    | some (found, t) => (if found then .table t else .null, Function.update s op t)

/-! ## What a table lists -/

/-- One of the slots holds a string, with a NUL inside the slot. -/
def HoldsString (slots : List (List Byte)) (i : ℕ) (s : List Byte) : Prop :=
  ∃ slot, slots[i]? = some slot ∧ s ++ [0] <+: slot

namespace Builder

variable (b : Builder)

/-- The arrays have the sizes that they are declared with. -/
structure Sized (t : Table) : Prop where
  algos : t.algos.length = b.max + 1
  name : t.name.length = b.max
  nameSlot : ∀ slot ∈ t.name, slot.length = b.slot
  propq : b.property = none → t.propq.length = b.max
  propqSlot : ∀ slot ∈ t.propq, slot.length = b.slot

/-- The entry at an index, and its slots, are those of an algorithm. -/
structure HoldsEntry (t : Table) (i : ℕ) (a : WitAlgorithm) : Prop where
  entry : t.algos[i]? = some (b.entry i a)
  name : HoldsString t.name i (a.algorithmNames.take (b.slot - 1))
  propq : b.property = none → HoldsString t.propq i (a.propertyDefinition.take (b.slot - 1))

/-- The memory holds the first algorithms of an answer, in order, and then an entry that is all
NULL, inside the array. -/
structure Lists (t : Table) (answer : List WitAlgorithm) : Prop extends b.Sized t where
  entries : ∀ i a, (answer.take b.max)[i]? = some a → b.HoldsEntry t i a
  sentinel : t.algos[(answer.take b.max).length]? = some {}

/-- What filling does from an index on. -/
structure Filled (t : Table) (i : ℕ) (as : List WitAlgorithm) (t' : Table) : Prop
    extends b.Sized t' where
  entries : ∀ j a, as[j]? = some a → b.HoldsEntry t' (i + j) a
  sentinel : t'.algos[i + as.length]? = some {}
  /-- What is before the index stays. -/
  algosBefore : ∀ j < i, t'.algos[j]? = t.algos[j]?
  nameBefore : ∀ j < i, t'.name[j]? = t.name[j]?
  propqBefore : ∀ j < i, t'.propq[j]? = t.propq[j]?

end Builder

section

variable {α : Type} {l l' : List α} {i : ℕ} {a : α}

theorem store?_eq_some (hi : i < l.length) : store? l i a = some (l.set i a) := if_pos hi

end

/-- A slot that is written holds what was written, and the others stay. -/
theorem exists_overwriteAt {slots : List (List Byte)} {i n : ℕ} {bytes : List Byte}
    (hi : i < slots.length) (hslot : ∀ slot ∈ slots, slot.length = n) (hbytes : bytes.length ≤ n) :
    ∃ slots', overwriteAt slots i bytes = some slots' ∧ slots'.length = slots.length ∧
      (∀ slot ∈ slots', slot.length = n) ∧ (∃ slot, slots'[i]? = some slot ∧ bytes <+: slot) ∧
      ∀ j, j ≠ i → slots'[j]? = slots[j]? := by
  have hlen : slots[i].length = n := hslot _ (List.getElem_mem hi)
  refine ⟨slots.set i (bytes ++ slots[i].drop bytes.length), ?_, List.length_set, ?_, ?_, ?_⟩
  · simp only [overwriteAt, List.getElem?_eq_getElem hi, Option.bind_eq_bind, Option.bind_some,
      overwrite, hlen, if_pos hbytes, store?_eq_some hi]
  · intro slot hmem
    rcases List.mem_or_eq_of_mem_set hmem with hmem | rfl
    · exact hslot slot hmem
    · simp [hlen]
      omega
  · exact ⟨_, List.getElem?_set_self hi, List.prefix_append _ _⟩
  · intro j hj
    exact List.getElem?_set_ne hj.symm

namespace Builder

variable {b : Builder} {t : Table}

theorem length_copy_le (s : List Byte) : (b.copy s).length ≤ b.slot := by
  have := b.slot_pos
  rw [b.copy_eq, List.length_append, List.length_take, List.length_singleton]
  omega

theorem exists_copyProperty (h : b.Sized t) {i : ℕ} (hi : i < b.max) (a : WitAlgorithm) :
    ∃ propq, b.copyProperty t.propq i a = some propq ∧ propq.length = t.propq.length ∧
      (∀ slot ∈ propq, slot.length = b.slot) ∧
      (b.property = none → ∃ slot, propq[i]? = some slot ∧ b.copy a.propertyDefinition <+: slot) ∧
      ∀ j, j ≠ i → propq[j]? = t.propq[j]? := by
  unfold copyProperty
  rcases hp : b.property with _ | p
  · obtain ⟨propq, hwrite, hlen, hslot, hat, hother⟩ :=
      exists_overwriteAt (i := i) (by rwa [h.propq hp]) h.propqSlot
        (b.length_copy_le a.propertyDefinition)
    exact ⟨propq, hwrite, hlen, hslot, fun _ => hat, hother⟩
  · exact ⟨t.propq, rfl, rfl, h.propqSlot, nofun, fun _ _ => rfl⟩

/-- The end of a table. -/
theorem Filled.nil (h : b.Sized t) {i : ℕ} (hi : i < t.algos.length) :
    b.Filled t i [] { t with algos := t.algos.set i {} } where
  algos := by rw [List.length_set, h.algos]
  name := h.name
  nameSlot := h.nameSlot
  propq := h.propq
  propqSlot := h.propqSlot
  entries := by simp
  sentinel := List.getElem?_set_self hi
  algosBefore _ hj := List.getElem?_set_ne (by omega)
  nameBefore _ _ := rfl
  propqBefore _ _ := rfl

/-- Two tables have the same at an index. -/
def SameAt (t t' : Table) (i : ℕ) : Prop :=
  t'.algos[i]? = t.algos[i]? ∧ t'.name[i]? = t.name[i]? ∧ t'.propq[i]? = t.propq[i]?

theorem HoldsEntry.of_sameAt {t t' : Table} {i : ℕ} {a : WitAlgorithm} (h : b.HoldsEntry t i a)
    (hsame : SameAt t t' i) : b.HoldsEntry t' i a := by
  obtain ⟨halgos, hname, hpropq⟩ := hsame
  refine ⟨halgos.trans h.entry, ?_, fun hp => ?_⟩
  · rw [HoldsString, hname]
    exact h.name
  · rw [HoldsString, hpropq]
    exact h.propq hp

/-- An entry that is written, and what is filled behind it. -/
theorem Filled.cons {t₁ t' : Table} {i : ℕ} {a : WitAlgorithm} {as : List WitAlgorithm}
    (h : b.Filled t₁ (i + 1) as t') (hhead : b.HoldsEntry t₁ i a)
    (hsame : ∀ j, j ≠ i → SameAt t t₁ j) : b.Filled t i (a :: as) t' := by
  refine { h.toSized with
    entries := ?_, sentinel := ?_, algosBefore := ?_, nameBefore := ?_, propqBefore := ?_ }
  · intro j a' hj
    cases j with
    | zero =>
      obtain rfl := Option.some.inj hj
      exact hhead.of_sameAt
        ⟨h.algosBefore i (by omega), h.nameBefore i (by omega), h.propqBefore i (by omega)⟩
    | succ j =>
      have hj : as[j]? = some a' := hj
      have := h.entries j a' hj
      rwa [Nat.add_right_comm] at this
  · have := h.sentinel
    rwa [Nat.add_right_comm] at this
  · intro j hj
    rw [h.algosBefore j (by omega)]
    exact (hsame j (by omega)).1
  · intro j hj
    rw [h.nameBefore j (by omega)]
    exact (hsame j (by omega)).2.1
  · intro j hj
    rw [h.propqBefore j (by omega)]
    exact (hsame j (by omega)).2.2

/-- One entry stays inside the memory. -/
theorem exists_fillEntry (h : b.Sized t) {i : ℕ} (hi : i < b.max) (a : WitAlgorithm) :
    ∃ name propq, overwriteAt t.name i (b.copy a.algorithmNames) = some name ∧
      b.copyProperty t.propq i a = some propq ∧
      let t₁ := { t with name, propq, algos := t.algos.set i (b.entry i a) }
      b.Sized t₁ ∧ b.HoldsEntry t₁ i a ∧ ∀ j, j ≠ i → SameAt t t₁ j := by
  obtain ⟨name, hname, hnameLen, hnameSlot, ⟨slot, hslot, hpre⟩, hnameOther⟩ :=
    exists_overwriteAt (by rwa [h.name]) h.nameSlot (b.length_copy_le a.algorithmNames)
  obtain ⟨propq, hpropq, hpropqLen, hpropqSlot, hpropqAt, hpropqOther⟩ :=
    exists_copyProperty h hi a
  have hlt : i < t.algos.length := by
    rw [h.algos]
    omega
  refine ⟨name, propq, hname, hpropq, ?_, ⟨?_, ?_, fun hp => ?_⟩, fun j hj => ⟨?_, ?_, ?_⟩⟩
  · exact
      { algos := by rw [List.length_set, h.algos]
        name := hnameLen.trans h.name
        nameSlot := hnameSlot
        propq := fun hp => hpropqLen.trans (h.propq hp)
        propqSlot := hpropqSlot }
  · exact List.getElem?_set_self hlt
  · exact ⟨slot, hslot, b.copy_eq _ ▸ hpre⟩
  · obtain ⟨slot, hslot, hpre⟩ := hpropqAt hp
    exact ⟨slot, hslot, b.copy_eq _ ▸ hpre⟩
  · exact List.getElem?_set_ne hj.symm
  · exact hnameOther j hj
  · exact hpropqOther j hj

/-- Filling stays inside the memory. -/
theorem exists_fill {i : ℕ} {as : List WitAlgorithm} (h : b.Sized t)
    (hlen : i + as.length ≤ b.max) : ∃ t', b.fill t i as = some t' ∧ b.Filled t i as t' := by
  have hi : i < t.algos.length := by
    rw [h.algos]
    omega
  induction as generalizing t i with
  | nil =>
    refine ⟨_, ?_, Filled.nil h hi⟩
    rw [fill, store?_eq_some hi]
    rfl
  | cons a as ih =>
    rw [List.length_cons] at hlen
    obtain ⟨name, propq, hname, hpropq, hsized, hhead, hsame⟩ :=
      exists_fillEntry h (show i < b.max by omega) a
    obtain ⟨t', hfill, hfilled⟩ := ih (i := i + 1) hsized (by omega) (by rw [hsized.algos]; omega)
    refine ⟨t', ?_, hfilled.cons hhead hsame⟩
    rw [fill, hname, hpropq, store?_eq_some hi]
    exact hfill

theorem sized_zeroed (b : Builder) : b.Sized b.zeroed where
  algos := List.length_replicate
  name := List.length_replicate
  nameSlot slot h := by rw [List.eq_of_mem_replicate h, List.length_replicate]
  propq h := by simp [zeroed, h]
  propqSlot slot h := by
    rw [zeroed] at h
    split_ifs at h
    · cases h
    · rw [List.eq_of_mem_replicate h, List.length_replicate]

/-- A table that was filled from the start lists the answer. -/
theorem Filled.lists {answer : List WitAlgorithm} (h : b.Filled b.zeroed 0 (answer.take b.max) t) :
    b.Lists { t with built := true } answer where
  algos := h.algos
  name := h.name
  nameSlot := h.nameSlot
  propq := h.propq
  propqSlot := h.propqSlot
  entries i a hi := by
    have hentry := h.entries i a hi
    rw [Nat.zero_add] at hentry
    exact ⟨hentry.entry, hentry.name, hentry.propq⟩
  sentinel := by
    have hsentinel := h.sentinel
    rwa [Nat.zero_add] at hsentinel

/-- There is a table that the builder returns. -/
structure Ready (b : Builder) (t : Table) : Prop where
  built : t.built = true
  named : ∃ e, t.algos.head? = some e ∧ e.algorithmNames.isSome = true

/-- Whatever the answer would be, a table that is there is returned, and stays. -/
theorem Ready.build (h : b.Ready t) (answer : List WitAlgorithm) :
    b.build t answer = some (true, t) := by
  obtain ⟨e, he, hnamed⟩ := h.named
  rw [Builder.build, if_pos h.built]
  split
  · rw [he, Option.map_some, hnamed]
  · rfl

theorem Lists.ready {answer : List WitAlgorithm} (h : b.Lists t answer) (hbuilt : t.built = true)
    (hne : answer ≠ []) : b.Ready t := by
  obtain ⟨a, as, rfl⟩ := List.exists_cons_of_ne_nil hne
  have hfirst : ((a :: as).take b.max)[0]? = some a := by
    obtain ⟨n, hn⟩ := Nat.exists_eq_add_of_le b.max_pos
    rw [hn, Nat.add_comm, List.take_succ_cons]
    rfl
  refine ⟨hbuilt, b.entry 0 a, ?_, rfl⟩
  rw [List.head?_eq_getElem?]
  exact (h.entries 0 a hfirst).entry

/-- What the memory may hold after some answers: nothing; the memory of an empty answer; or a table
that lists one of them. -/
inductive Reaches (b : Builder) (asked : List (List WitAlgorithm)) : Table → Prop
  | unbuilt : Reaches b asked b.zeroed
  | empty (h : b.keepsEmpty = true) : Reaches b asked { b.zeroed with built := true }
  | built {t : Table} {answer : List WitAlgorithm} (ready : b.Ready t) (mem : answer ∈ asked)
      (lists : b.Lists t answer) : Reaches b asked t

theorem Reaches.mono {asked asked' : List (List WitAlgorithm)} (h : b.Reaches asked t)
    (hsub : asked ⊆ asked') : b.Reaches asked' t := by
  cases h with
  | unbuilt => exact .unbuilt
  | empty h => exact .empty h
  | built ready mem lists => exact .built ready (hsub mem) lists

/-- What a builder does: it does not leave its memory, and returns a table only if it is there. -/
theorem exists_build {asked : List (List WitAlgorithm)} (h : b.Reaches asked t)
    (answer : List WitAlgorithm) : ∃ found t', b.build t answer = some (found, t') ∧
      b.Reaches (asked ++ [answer]) t' ∧ (found = true → b.Ready t') := by
  cases h with
  | unbuilt =>
    by_cases hnil : answer.length = 0
    · refine ⟨false, { b.zeroed with built := b.keepsEmpty }, ?_, ?_, nofun⟩
      · rw [build, if_neg (by simp [zeroed]), if_pos hnil]
      · -- whether an empty answer is remembered
        rcases hkeeps : b.keepsEmpty with _ | _
        · exact .unbuilt
        · exact .empty hkeeps
    · have htake : answer.take (if answer.length < b.max then answer.length else b.max) =
          answer.take b.max := by
        split
        next h => rw [List.take_length, List.take_of_length_le h.le]
        next => rfl
      have hlen : 0 + (answer.take b.max).length ≤ b.max := by
        rw [List.length_take]
        omega
      obtain ⟨t', hfill, hfilled⟩ := exists_fill b.sized_zeroed hlen
      have hready : b.Ready { t' with built := true } :=
        hfilled.lists.ready rfl (by simpa using hnil)
      refine ⟨true, { t' with built := true }, ?_, ?_, fun _ => hready⟩
      · rw [build, if_neg (by simp [zeroed]), if_neg hnil]
        simp only [htake, hfill, Option.map_some]
      · exact .built hready (by simp) hfilled.lists
  | empty h =>
    refine ⟨false, { b.zeroed with built := true }, ?_, .empty h, nofun⟩
    rw [build, if_pos rfl, if_pos h]
    simp [zeroed, List.replicate_succ]
  | built ready mem lists =>
    exact ⟨true, t, ready.build answer, .built ready (List.mem_append_left _ mem) lists,
      fun _ => ready⟩

end Builder

/-! ## The tables as lists -/

/-- An entry in memory is one of a list, whose functions are among all by `f`. -/
structure Shows {D : Type} (f : D → Dispatch) (t : Table) (i : ℕ) (e : OsslAlgorithm D) :
    Prop where
  entry : t.algos[i]? = some ⟨some (.name i), some (.propq i), some (f e.implementation),
    some e.algorithmDescription⟩
  name : ∃ slot, t.name[i]? = some slot ∧ e.algorithmNames <+: slot
  propq : ∃ slot, t.propq[i]? = some slot ∧ e.propertyDefinition <+: slot

theorem Builder.Lists.shows {b : Builder} {D : Type} {f : D → Dispatch} {d : List Byte → D}
    (hmax : b.max = witMaxAlgos) (hcopy : b.copy = strdupFirstAlias slotSize)
    (hproperty : b.property = none) (hd : ∀ name, b.dispatchFor name = f (d name)) {t : Table}
    {answer : List WitAlgorithm} (h : b.Lists t answer) :
    ∀ table ∈ (buildAlgos d b.description none answer).1, ∀ i e, table[i]? = some e →
      Shows f t i e := by
  intro table htable i e he
  have htake : table = (answer.take b.max).map (buildAlgo d b.description) := by
    rw [buildAlgos] at htable
    split_ifs at htable with hnil hlt
    · cases htable
    · obtain rfl := Option.some.inj htable
      rw [List.take_length, hmax, List.take_of_length_le hlt.le]
    · obtain rfl := Option.some.inj htable
      rw [hmax]
  rw [htake, List.getElem?_map] at he
  obtain ⟨a, ha, rfl⟩ := Option.map_eq_some_iff.mp he
  have hentry := h.entries i a ha
  refine ⟨?_, ?_, ?_⟩
  · rw [hentry.entry, Builder.entry, hproperty, hd, hcopy]
    rfl
  · obtain ⟨slot, hslot, hpre⟩ := hentry.name
    rw [← b.copy_eq, hcopy] at hpre
    exact ⟨slot, hslot, hpre⟩
  · obtain ⟨slot, hslot, hpre⟩ := hentry.propq hproperty
    rw [← b.copy_eq, hcopy] at hpre
    exact ⟨slot, hslot, hpre⟩

/-- The memory of the key managers holds the table that `buildKeymgmtAlgos` lists. -/
theorem shows_keymgmt {t : Table} {answer : List WitAlgorithm}
    (h : keymgmtBuilder.Lists t answer) :
    ∀ table ∈ (buildKeymgmtAlgos none answer).1, ∀ i e, table[i]? = some e →
      Shows .keymgmt t i e :=
  h.shows (f := .keymgmt) (d := dispatchForKeymgmtName) rfl rfl rfl fun _ => rfl

theorem shows_signature {t : Table} {answer : List WitAlgorithm}
    (h : signatureBuilder.Lists t answer) :
    ∀ table ∈ (buildSignatureAlgos none answer).1, ∀ i e, table[i]? = some e →
      Shows .signature t i e :=
  h.shows (f := .signature) (d := dispatchForSignatureName) rfl rfl rfl fun _ => rfl

/-! ## Runs -/

/-- The answers to the queries for an operation. -/
def asked (op : Operation) (queries : List Query) : List (List WitAlgorithm) :=
  (queries.filter (·.operation = some op)).map Query.answer

/-- What the memory of each operation may hold after some queries. -/
def Reachable (queries : List Query) (s : State) : Prop :=
  ∀ op : Operation, op.builder.Reaches (asked op queries) (s op)

theorem asked_concat (op : Operation) (queries : List Query) (q : Query) :
    asked op (queries ++ [q]) = asked op queries ++ if q.operation = some op then [q.answer]
      else [] := by
  rw [asked, List.filter_append, List.map_append, asked]
  split
  next h => simp [h]
  next h => simp [h]

/-- What one call does: no access outside the memory, and a table only if it is there. -/
theorem reachable_step {queries : List Query} {s : State} (h : Reachable queries s) (q : Query) :
    (step s q).1 ≠ .fault ∧ Reachable (queries ++ [q]) (step s q).2 ∧
      ∀ t, (step s q).1 = .table t →
        ∃ op, q.operation = some op ∧ (step s q).2 op = t ∧ op.builder.Ready t := by
  rcases hop : q.operation with _ | op
  · have hstep : step s q = (.null, s) := by rw [step, hop]
    rw [hstep]
    refine ⟨nofun, fun op => (h op).mono ?_, nofun⟩
    rw [asked_concat]
    exact List.subset_append_left _ _
  · obtain ⟨found, t, hbuild, hreaches, hready⟩ := Builder.exists_build (h op) q.answer
    have hstep : step s q = (if found then .table t else .null, Function.update s op t) := by
      rw [step, hop]
      simp only [hbuild]
    rw [hstep]
    refine ⟨by cases found <;> simp, fun op' => ?_, fun t' ht' => ?_⟩
    · rw [asked_concat, hop]
      by_cases heq : op' = op
      · subst heq
        simpa using hreaches
      · have hother : Function.update s op t op' = s op' := Function.update_of_ne heq _ _
        rw [if_neg (fun h => heq (Option.some.inj h).symm), List.append_nil]
        show op'.builder.Reaches (asked op' queries) (Function.update s op t op')
        rw [hother]
        exact h op'
    · cases found with
      | false => cases ht'
      | true =>
        obtain rfl := Reply.table.inj ht'
        exact ⟨op, rfl, Function.update_self _ _ _, hready rfl⟩

theorem reachable_run (queries : List Query) :
    Reachable queries (run step State.zeroed queries).2 := by
  have hstep : ∀ (t : List (Query × Reply)) s q, Reachable (t.map Prod.fst) s →
      Reachable ((t ++ [(q, (step s q).1)]).map Prod.fst) (step s q).2 := by
    intro t s q h
    rw [List.map_append]
    exact (reachable_step h q).2.1
  have h := run_invariant (I := fun t s => Reachable (t.map Prod.fst) s) (t := []) hstep
    (fun _ => .unbuilt) queries
  rwa [List.nil_append, map_fst_run] at h

/-- A table that is there stays, and is returned. -/
theorem ready_step {op : Operation} {t : Table} (ht : op.builder.Ready t) {s : State}
    (h : s op = t) (q : Query) :
    (step s q).2 op = t ∧ (q.operation = some op → (step s q).1 = .table t) := by
  rcases hop : q.operation with _ | op'
  · rw [step, hop]
    exact ⟨h, nofun⟩
  · by_cases heq : op' = op
    · subst heq
      have hbuild : op'.builder.build (s op') q.answer = some (true, t) := by
        rw [h]
        exact ht.build q.answer
      simp only [step, hop, hbuild]
      exact ⟨Function.update_self _ _ _, fun _ => rfl⟩
    · have hother : (step s q).2 op = s op := by
        simp only [step, hop]
        rcases op'.builder.build (s op') q.answer with _ | ⟨found, t'⟩
        · rfl
        · exact Function.update_of_ne (Ne.symm heq) _ _
      exact ⟨hother.trans h, fun h' => absurd (Option.some.inj h') heq⟩

/-- After any run of queries, whatever the provider answers: a query does not leave the memory, and
returns NULL or a table that lists an answer that was given for its operation; that table is there
after any later run, and is returned again. -/
theorem queries_listed (queries : List Query) (q : Query) :
    let s := (run step State.zeroed queries).2
    (step s q).1 ≠ .fault ∧ ∀ t, (step s q).1 = .table t →
      ∃ op, q.operation = some op ∧
        (∃ answer ∈ asked op (queries ++ [q]), op.builder.Lists t answer) ∧
        ∀ later : List Query, let s' := (run step (step s q).2 later).2
          s' op = t ∧ ∀ q' : Query, q'.operation = some op → (step s' q').1 = .table t := by
  intro s
  obtain ⟨hfault, hreach, htable⟩ := reachable_step (reachable_run queries) q
  refine ⟨hfault, fun t ht => ?_⟩
  obtain ⟨op, hop, hs, hready⟩ := htable t ht
  refine ⟨op, hop, ?_, fun later => ?_⟩
  · have hreach := hreach op
    rw [hs] at hreach
    cases hreach with
    | unbuilt => cases hready.built
    | empty h =>
      -- nothing was returned for an empty answer
      obtain ⟨e, he, hnamed⟩ := hready.named
      simp only [Builder.zeroed, List.replicate_succ, List.head?_cons, Option.some.injEq] at he
      subst he
      cases hnamed
    | built _ mem lists => exact ⟨_, mem, lists⟩
  · have hlater : (run step (step s q).2 later).2 op = t :=
      run_preserves (I := fun s : State => s op = t) (fun s' q' h => (ready_step hready h q').1) hs later
    exact ⟨hlater, fun q' hq' => (ready_step hready hlater q').2 hq'⟩

end OpenSSLWasm.Provider.Tables
