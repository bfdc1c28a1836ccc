import OpenSSLWasm.Lib.HandleTable
import OpenSSLWasm.Lib.Transcript

/-!
# Contexts that absorb data

A family of contexts, each under a handle. A context is opened with a key, absorbs data in chunks,
can be copied, and comes to an end. Whoever makes the calls notes down what the answers tell, and so
knows of some contexts what they have absorbed; what the contexts hold is to be the same.

## Main definitions

* `Note`: what an answer tells about a context;
* `Known` and `Known.note`: what is known of each handle, and how a note changes it;
* `known`: what a transcript tells;
* `Carries`: a relation between handles and what is known of them is passed on along a note;
* `InTable`: the relation of objects in a table of handles.

## Main results

* `Carries.note`: with every note that is carried, the contexts hold what is known of them;
* `known_run`: and so after every run;
* `carries_insert_opened`, `carries_insert_copied`, `carries_set_absorbed`, `carries_set_lost`,
  `carries_remove_lost`: the notes that go with the changes of a table.
-/

namespace Absorb

variable {σ ι ω κ β : Type*}

/-- What an answer tells about contexts. -/
inductive Note (κ β : Type*)
  | opened (h : ℕ) (k : κ)
  | absorbed (h : ℕ) (data : List β)
  /-- There is a copy of the context `h`, under the handle `h'`. -/
  | copied (h h' : ℕ)
  /-- The context has come to an end, or a call on it has failed. -/
  | lost (h : ℕ)
  deriving DecidableEq

/-- What is known of each handle: what its context was opened with, and what it has absorbed. -/
abbrev Known (κ β : Type*) := ℕ → Option (κ × List β)

/-- What a note changes. -/
def Known.note (K : Known κ β) : Note κ β → Known κ β
  | .opened h k => Function.update K h (some (k, []))
  | .absorbed h data => Function.update K h ((K h).map fun x => (x.1, x.2 ++ data))
  | .copied h h' => Function.update K h' (K h)
  | .lost h => Function.update K h none

/-- What a transcript tells, if each call and its answer give a note or none. -/
def known (note : ι × ω → Option (Note κ β)) (t : List (ι × ω)) : Known κ β :=
  (t.filterMap note).foldl Known.note fun _ => none

section

variable {note : ι × ω → Option (Note κ β)}

@[simp] theorem known_nil : known note [] = fun _ => none := rfl

theorem known_concat (t : List (ι × ω)) (p : ι × ω) :
    known note (t ++ [p]) = (note p).elim (known note t) (known note t).note := by
  rw [known, List.filterMap_append, List.foldl_append]
  rcases hp : note p with _ | n
  · rw [List.filterMap_cons_none hp]
    rfl
  · rw [List.filterMap_cons_some hp]
    rfl

end

/-- The note passes a relation on: between handles and what was known of them, before, and between
handles and what is known then, after. -/
def Carries (R R' : ℕ → κ × List β → Prop) : Option (Note κ β) → Prop
  | none => ∀ h x, R h x → R' h x
  | some (.opened h k) => R' h (k, []) ∧ ∀ h' x, h' ≠ h → R h' x → R' h' x
  | some (.absorbed h data) =>
    (∀ k d, R h (k, d) → R' h (k, d ++ data)) ∧ ∀ h' x, h' ≠ h → R h' x → R' h' x
  | some (.copied h h') => (∀ x, R h x → R' h' x) ∧ ∀ h'' x, h'' ≠ h' → R h'' x → R' h'' x
  | some (.lost h) => ∀ h' x, h' ≠ h → R h' x → R' h' x

/-- Only the handle that is written to has to be looked at. -/
theorem forall_update {K : Known κ β} {R R' : ℕ → κ × List β → Prop} {k : ℕ}
    {o : Option (κ × List β)} (hK : ∀ h x, K h = some x → R h x) (ho : ∀ x ∈ o, R' k x)
    (hne : ∀ h x, h ≠ k → R h x → R' h x) :
    ∀ h x, Function.update K k o h = some x → R' h x := by
  intro h x hx
  by_cases hk : h = k
  · subst hk
    rw [Function.update_self] at hx
    exact ho x hx
  · rw [Function.update_of_ne hk] at hx
    exact hne h x hk (hK h x hx)

/-- What the contexts hold remains what is known of them. -/
theorem Carries.note {R R' : ℕ → κ × List β → Prop} {o : Option (Note κ β)} (h : Carries R R' o)
    {K : Known κ β} (hK : ∀ h x, K h = some x → R h x) :
    ∀ h x, o.elim K K.note h = some x → R' h x := by
  rcases o with _ | n
  · exact fun k x hx => h k x (hK k x hx)
  cases n with
  | opened k a =>
    refine forall_update hK (fun x hx => ?_) h.2
    obtain rfl := Option.some.inj hx
    exact h.1
  | absorbed k data =>
    refine forall_update hK (fun x hx => ?_) h.2
    obtain ⟨y, hy, rfl⟩ := Option.map_eq_some_iff.mp hx
    exact h.1 y.1 y.2 (hK k y hy)
  | copied k k' => exact forall_update hK (fun x hx => h.1 x (hK k x hx)) h.2
  | lost k => exact forall_update hK (fun x hx => by cases hx) h

/-- If the calls carry a relation between the states and what is known of their contexts, then it
holds after every run. -/
theorem known_run {step : σ → ι → ω × σ} {note : ι × ω → Option (Note κ β)} {I : σ → Prop}
    {R : σ → ℕ → κ × List β → Prop}
    (hstep : ∀ s i, I s →
      Carries (R s) (R (step s i).2) (note (i, (step s i).1)) ∧ I (step s i).2)
    {s : σ} (hs : I s) (is : List ι) {h : ℕ} {x : κ × List β}
    (hx : known note (Transcript.run step s is).1 h = some x) :
    R (Transcript.run step s is).2 h x := by
  suffices hrun : (∀ h x, known note (Transcript.run step s is).1 h = some x →
      R (Transcript.run step s is).2 h x) ∧ I (Transcript.run step s is).2 from hrun.1 h x hx
  refine Transcript.run_invariant (t := [])
    (I := fun t s => (∀ h x, known note t h = some x → R s h x) ∧ I s) ?_ ⟨nofun, hs⟩ is
  rintro t s i ⟨hK, hI⟩
  obtain ⟨hcarries, hI'⟩ := hstep s i hI
  rw [known_concat]
  exact ⟨hcarries.note hK, hI'⟩

/-! ## Contexts in a table -/

section Table

variable {α : Type*} {P : α → κ × List β → Prop} {t : HandleTable α} {a : α} {h : ℕ}

/-- The object under the handle is related to what is known. -/
def InTable (P : α → κ × List β → Prop) (t : HandleTable α) (h : ℕ) (x : κ × List β) : Prop :=
  ∃ a, t.entry h = some a ∧ P a x

theorem inTable_of_entry {x : κ × List β} (hx : InTable P t h x) (ha : t.entry h = some a) :
    P a x := by
  obtain ⟨b, hb, hP⟩ := hx
  obtain rfl := Option.some.inj (ha.symm.trans hb)
  exact hP

theorem inTable_insert (k : ℕ) (x : κ × List β) (hk : k ≠ t.next) (hx : InTable P t k x) :
    InTable P (t.insert a) k x := by
  obtain ⟨b, hb, hP⟩ := hx
  exact ⟨b, (HandleTable.entry_insert_of_ne hk).trans hb, hP⟩

theorem inTable_set (k : ℕ) (x : κ × List β) (hk : k ≠ h) (hx : InTable P t k x) :
    InTable P (t.set h a) k x := by
  obtain ⟨b, hb, hP⟩ := hx
  exact ⟨b, (HandleTable.entry_set_of_ne hk).trans hb, hP⟩

theorem inTable_remove (k : ℕ) (x : κ × List β) (hk : k ≠ h) (hx : InTable P t k x) :
    InTable P (t.remove h) k x := by
  obtain ⟨b, hb, hP⟩ := hx
  exact ⟨b, (HandleTable.entry_remove_of_ne hk).trans hb, hP⟩

theorem carries_insert_opened {k : κ} (ha : P a (k, [])) :
    Carries (InTable P t) (InTable P (t.insert a)) (some (.opened t.next k)) :=
  ⟨⟨a, HandleTable.entry_insert_next t a, ha⟩, inTable_insert⟩

theorem carries_insert_copied {b : α} (hb : t.entry h = some b) (ha : ∀ x, P b x → P a x) :
    Carries (InTable P t) (InTable P (t.insert a)) (some (.copied h t.next)) :=
  ⟨fun x hx => ⟨a, HandleTable.entry_insert_next t a, ha x (inTable_of_entry hx hb)⟩,
    inTable_insert⟩

theorem carries_set_absorbed {b : α} (hb : t.entry h = some b) {data : List β}
    (ha : ∀ k d, P b (k, d) → P a (k, d ++ data)) :
    Carries (InTable P t) (InTable P (t.set h a)) (some (.absorbed h data)) :=
  ⟨fun k d hx => ⟨a, HandleTable.entry_set_self hb, ha k d (inTable_of_entry hx hb)⟩,
    inTable_set⟩

theorem carries_set_lost : Carries (InTable P t) (InTable P (t.set h a)) (some (.lost h)) :=
  inTable_set

theorem carries_remove_lost : Carries (InTable P t) (InTable P (t.remove h)) (some (.lost h)) :=
  inTable_remove

theorem carries_lost : Carries (InTable P t) (InTable P t) (some (.lost h)) := fun _ _ _ h => h

theorem carries_none : Carries (InTable P t) (InTable P t) none := fun _ _ h => h

end Table

end Absorb
