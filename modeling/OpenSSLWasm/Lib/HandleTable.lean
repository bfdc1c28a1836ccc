import Mathlib.Algebra.BigOperators.Group.Finset.Piecewise
import Mathlib.Algebra.Order.Group.Multiset
import Mathlib.Data.Multiset.AddSub

/-!
# Tables of handles

Objects that are known by handles: each new object gets the next number, and no number is given
twice. What the objects have is summed up over the table.

## Main definitions

* `HandleTable`: the objects that are there, and the next number;
* `insert`, `set`, `remove`: a new object, a change of one, the end of one;
* `owned`: what all objects have together.

## Main results

* `owned_insert`, `owned_of_entry`, `owned_set`: a new object adds what it has; one that is there
  can be split off, and changed by itself.
-/

/-- The objects under their handles. -/
structure HandleTable (α : Type*) where
  entry : ℕ → Option α
  next : ℕ
  lt_next : ∀ h a, entry h = some a → h < next

namespace HandleTable

open Function

variable {α ρ : Type*}

/-- No objects. -/
def empty : HandleTable α where
  entry _ := none
  next := 0
  lt_next := nofun

/-- A new object, under the next handle. -/
def insert (t : HandleTable α) (a : α) : HandleTable α where
  entry := update t.entry t.next (some a)
  next := t.next + 1
  lt_next h b hb := by
    by_cases hh : h = t.next
    · omega
    · rw [update_of_ne hh] at hb
      exact Nat.lt_succ_of_lt (t.lt_next h b hb)

/-- New objects, one after the other. -/
def insertAll (t : HandleTable α) (as : List α) : HandleTable α := as.foldl insert t

/-- Another object in place of the one under a handle, if there is one. -/
def set (t : HandleTable α) (h : ℕ) (a : α) : HandleTable α where
  entry := update t.entry h ((t.entry h).map fun _ => a)
  next := t.next
  lt_next k b hb := by
    by_cases hk : k = h
    · subst hk
      rw [update_self] at hb
      obtain ⟨b', hb', -⟩ := Option.map_eq_some_iff.mp hb
      exact t.lt_next k b' hb'
    · rw [update_of_ne hk] at hb
      exact t.lt_next k b hb

/-- The object under a handle comes to its end. -/
def remove (t : HandleTable α) (h : ℕ) : HandleTable α where
  entry := update t.entry h none
  next := t.next
  lt_next k b hb := by
    by_cases hk : k = h
    · subst hk
      rw [update_self] at hb
      cases hb
    · rw [update_of_ne hk] at hb
      exact t.lt_next k b hb

variable (t : HandleTable α) (h : ℕ) (a : α)

@[simp] theorem entry_empty : (empty : HandleTable α).entry h = none := rfl

@[simp] theorem next_insert : (t.insert a).next = t.next + 1 := rfl

@[simp] theorem next_set : (t.set h a).next = t.next := rfl

@[simp] theorem next_remove : (t.remove h).next = t.next := rfl

@[simp] theorem entry_next : t.entry t.next = none := by
  refine Option.eq_none_iff_forall_ne_some.mpr fun a ha => ?_
  exact absurd (t.lt_next t.next a ha) (Nat.lt_irrefl _)

@[simp] theorem entry_insert_next : (t.insert a).entry t.next = some a := update_self _ _ _

@[simp] theorem entry_remove_self : (t.remove h).entry h = none := update_self _ _ _

variable {t h a}

theorem entry_insert_of_ne {k : ℕ} (hk : k ≠ t.next) : (t.insert a).entry k = t.entry k :=
  update_of_ne hk _ _

/-- What is there after new objects are is new, or was there. -/
theorem mem_or_of_entry_insertAll {as : List α} {k : ℕ} (h : (t.insertAll as).entry k = some a) :
    a ∈ as ∨ t.entry k = some a := by
  induction as generalizing t with
  | nil => exact Or.inr h
  | cons b bs ih =>
    rcases ih h with ha | ha
    · exact Or.inl (List.mem_cons_of_mem b ha)
    · by_cases hk : k = t.next
      · subst hk
        rw [entry_insert_next] at ha
        exact Or.inl (Option.some.inj ha ▸ List.mem_cons_self)
      · rw [entry_insert_of_ne hk] at ha
        exact Or.inr ha

/-- The entries after a change of an object that is there. -/
theorem entry_set {b : α} (hb : t.entry h = some b) :
    (t.set h a).entry = update t.entry h (some a) := by
  show update t.entry h ((t.entry h).map fun _ => a) = _
  rw [hb, Option.map_some]

theorem entry_set_self {b : α} (hb : t.entry h = some b) : (t.set h a).entry h = some a := by
  rw [entry_set hb, update_self]

theorem entry_set_of_ne {k : ℕ} (hk : k ≠ h) : (t.set h a).entry k = t.entry k :=
  update_of_ne hk _ _

theorem entry_remove_of_ne {k : ℕ} (hk : k ≠ h) : (t.remove h).entry k = t.entry k :=
  update_of_ne hk _ _

/-! ## Other objects in their place -/

section Map

variable {β : Type*} (f : α → β)

@[ext] theorem ext {t u : HandleTable α} (hentry : ∀ h, t.entry h = u.entry h)
    (hnext : t.next = u.next) : t = u := by
  obtain ⟨e, n, _⟩ := t
  obtain ⟨e', n', _⟩ := u
  obtain rfl : e = e' := funext hentry
  obtain rfl : n = n' := hnext
  rfl

/-- Each object replaced by what it stands for. -/
def map (t : HandleTable α) : HandleTable β where
  entry h := (t.entry h).map f
  next := t.next
  lt_next h b hb := by
    obtain ⟨a, ha, -⟩ := Option.map_eq_some_iff.mp hb
    exact t.lt_next h a ha

@[simp] theorem entry_map (t : HandleTable α) (h : ℕ) : (t.map f).entry h = (t.entry h).map f := rfl

@[simp] theorem next_map (t : HandleTable α) : (t.map f).next = t.next := rfl

@[simp] theorem map_empty : (empty : HandleTable α).map f = empty := rfl

theorem map_insert (t : HandleTable α) (a : α) : (t.insert a).map f = (t.map f).insert (f a) := by
  refine ext (fun h => ?_) rfl
  by_cases hh : h = t.next
  · subst hh
    exact (congrArg (Option.map f) (entry_insert_next t a)).trans
      (entry_insert_next (t.map f) (f a)).symm
  · have hh' : h ≠ (t.map f).next := hh
    rw [entry_map, entry_insert_of_ne hh, entry_insert_of_ne hh', entry_map]

theorem map_insertAll (t : HandleTable α) (as : List α) :
    (t.insertAll as).map f = (t.map f).insertAll (as.map f) := by
  induction as generalizing t with
  | nil => rfl
  | cons a as ih => exact (ih (t.insert a)).trans (by rw [map_insert]; rfl)

theorem map_remove (t : HandleTable α) (h : ℕ) : (t.remove h).map f = (t.map f).remove h := by
  refine ext (fun k => ?_) rfl
  by_cases hk : k = h
  · subst hk
    rw [entry_map, entry_remove_self, entry_remove_self, Option.map_none]
  · rw [entry_map, entry_remove_of_ne hk, entry_remove_of_ne hk, entry_map]

end Map

/-! ## What the objects have -/

section Owned

variable (f : ℕ → α → Multiset ρ)

/-- What all objects have together. -/
def owned (t : HandleTable α) : Multiset ρ := ∑ h ∈ Finset.range t.next, (t.entry h).elim 0 (f h)

@[simp] theorem owned_empty : (empty : HandleTable α).owned f = 0 := rfl

/-- A handle can be split off. -/
theorem sum_update {h : ℕ} (hh : h < t.next) (o : Option α) :
    ∑ k ∈ Finset.range t.next, ((update t.entry h o) k).elim 0 (f k) =
      o.elim 0 (f h) + ∑ k ∈ Finset.range t.next \ {h}, (t.entry k).elim 0 (f k) := by
  have happly : (fun k => ((update t.entry h o) k).elim 0 (f k)) =
      update (fun k => (t.entry k).elim 0 (f k)) h (o.elim 0 (f h)) := by
    funext k
    by_cases hk : k = h
    · subst hk
      rw [update_self, update_self]
    · rw [update_of_ne hk, update_of_ne hk]
  rw [happly, Finset.sum_update_of_mem (Finset.mem_range.mpr hh)]

theorem owned_insert : (t.insert a).owned f = f t.next a + t.owned f := by
  rw [owned, next_insert, Finset.sum_range_succ, entry_insert_next, add_comm]
  refine congrArg _ (Finset.sum_congr rfl fun k hk => ?_)
  rw [entry_insert_of_ne (Nat.ne_of_lt (Finset.mem_range.mp hk))]

theorem owned_insertAll {g : α → Multiset ρ} (as : List α) :
    (t.insertAll as).owned (fun _ => g) = (as.map g).sum + t.owned fun _ => g := by
  induction as generalizing t with
  | nil => exact (zero_add _).symm
  | cons a as ih =>
    have hinsert := ih (t := t.insert a)
    rw [owned_insert] at hinsert
    rw [List.map_cons, List.sum_cons, add_assoc, add_left_comm]
    exact hinsert

/-- What the others have. -/
theorem owned_remove (hlt : h < t.next) :
    (t.remove h).owned f = ∑ k ∈ Finset.range t.next \ {h}, (t.entry k).elim 0 (f k) :=
  (sum_update f hlt none).trans (zero_add _)

/-- What an object has, and what the others have. -/
theorem owned_of_entry (ha : t.entry h = some a) :
    t.owned f = f h a + (t.remove h).owned f := by
  have hself := sum_update f (t.lt_next h a ha) (some a)
  rw [← ha, update_eq_self, ha] at hself
  rw [owned, hself, owned_remove f (t.lt_next h a ha)]
  rfl

theorem mem_owned {r : ρ} :
    r ∈ t.owned f ↔ ∃ h a, t.entry h = some a ∧ r ∈ f h a := by
  rw [owned, Multiset.mem_sum]
  constructor
  · rintro ⟨h, -, hr⟩
    rcases ha : t.entry h with _ | a
    · simp [ha] at hr
    · exact ⟨h, a, ha, by simpa [ha] using hr⟩
  · rintro ⟨h, a, ha, hr⟩
    exact ⟨h, Finset.mem_range.mpr (t.lt_next h a ha), by simpa [ha] using hr⟩

/-- Only what the object has changes. -/
theorem owned_set {b : α} (hb : t.entry h = some b) :
    (t.set h a).owned f = f h a + (t.remove h).owned f := by
  rw [owned, entry_set hb, next_set, sum_update f (t.lt_next h b hb) (some a),
    owned_remove f (t.lt_next h b hb)]
  rfl

end Owned

end HandleTable
