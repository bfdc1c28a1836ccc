import Mathlib.Logic.Function.Basic
import Mathlib.Tactic.Common

/-!
# Owners and their cells

A heap of cells, of which every owner has at most one. As long as no two owners have the same cell,
what happens to the cell of one owner leaves what the others have as it is, whatever addresses are
used, and used again.

## Main definitions

* `Cells` and `Cells.content`: the heap with its owners, and what an owner has;
* `Cells.Separate`: no two owners have the same cell, and none has a cell that was freed;
* `Cells.put`: an owner gets a cell for the one that it had.

## Main results

* `Separate.put` and `content_put`: the cells remain separate, and only the content of that owner
  changes;
* `put_of_none`, `put_same`, `put_free`, `put_move`: a new cell, a write to a cell, the end of a
  cell and a move to another are all of this kind.
-/

/-- A heap, and the address of the cell of each owner. -/
structure Cells (K A V : Type*) where
  heap : A → Option V
  addr : K → Option A

namespace Cells

variable {K A V : Type*}

/-- What an owner has in its cell. -/
def content (s : Cells K A V) (k : K) : Option V := (s.addr k).bind s.heap

/-- Every owner has a cell of its own that was not freed, or none. -/
structure Separate (s : Cells K A V) : Prop where
  injective : ∀ {k k' a}, s.addr k = some a → s.addr k' = some a → k = k'
  live : ∀ {k a}, s.addr k = some a → s.heap a ≠ none

theorem content_of_addr {s : Cells K A V} {k : K} {a : A} (hk : s.addr k = some a) :
    s.content k = s.heap a := by
  rw [content, hk, Option.bind_some]

theorem content_of_addr_eq_none {s : Cells K A V} {k : K} (hk : s.addr k = none) :
    s.content k = none := by
  rw [content, hk, Option.bind_none]

theorem Separate.exists_content {s : Cells K A V} (h : s.Separate) {k : K} {a : A}
    (hk : s.addr k = some a) : ∃ v, s.heap a = some v ∧ s.content k = some v := by
  obtain ⟨v, hv⟩ := Option.ne_none_iff_exists'.mp (h.live hk)
  exact ⟨v, hv, (content_of_addr hk).trans hv⟩

variable [DecidableEq K] [DecidableEq A]

/-- The cell of an owner is freed, if it has one, and it gets another one or none. -/
def put (s : Cells K A V) (k : K) (o : Option (A × V)) : Cells K A V where
  heap a :=
    if o.map Prod.fst = some a then o.map Prod.snd else if s.addr k = some a then none else s.heap a
  addr := Function.update s.addr k (o.map Prod.fst)

theorem addr_put_self (s : Cells K A V) (k : K) (o : Option (A × V)) :
    (s.put k o).addr k = o.map Prod.fst :=
  Function.update_self _ _ _

theorem addr_put_of_ne {s : Cells K A V} {k k' : K} (hne : k' ≠ k) (o : Option (A × V)) :
    (s.put k o).addr k' = s.addr k' :=
  Function.update_of_ne hne _ _

section

variable {s : Cells K A V} (h : s.Separate) {k : K} {o : Option (A × V)}
  (ho : ∀ p ∈ o, s.heap p.1 = none ∨ s.addr k = some p.1)
include h ho

omit [DecidableEq K] [DecidableEq A] in
/-- The cells of the other owners are not among those that change. -/
theorem Separate.other {k' : K} (hne : k' ≠ k) {a : A} (hk' : s.addr k' = some a) :
    o.map Prod.fst ≠ some a ∧ s.addr k ≠ some a := by
  have hold : s.addr k ≠ some a := fun hk => hne (h.injective hk' hk)
  refine ⟨fun hnew => ?_, hold⟩
  obtain ⟨p, hp, rfl⟩ := Option.map_eq_some_iff.mp hnew
  rcases ho p hp with hfree | hk
  · exact h.live hk' hfree
  · exact hold hk

theorem Separate.put : (s.put k o).Separate := by
  constructor
  · intro k₁ k₂ a h₁ h₂
    by_cases hk₁ : k₁ = k
    · by_cases hk₂ : k₂ = k
      · rw [hk₁, hk₂]
      · -- the new cell is nobody else's
        rw [hk₁, addr_put_self] at h₁
        rw [addr_put_of_ne hk₂] at h₂
        exact absurd h₁ (h.other ho hk₂ h₂).1
    · rw [addr_put_of_ne hk₁] at h₁
      by_cases hk₂ : k₂ = k
      · rw [hk₂, addr_put_self] at h₂
        exact absurd h₂ (h.other ho hk₁ h₁).1
      · rw [addr_put_of_ne hk₂] at h₂
        exact h.injective h₁ h₂
  · intro k' a hk'
    by_cases hne : k' = k
    · -- the new cell was just written
      rw [hne, addr_put_self] at hk'
      have hheap : (s.put k o).heap a = o.map Prod.snd := if_pos hk'
      obtain ⟨p, rfl, -⟩ := Option.map_eq_some_iff.mp hk'
      rw [hheap, Option.map_some]
      exact Option.some_ne_none _
    · rw [addr_put_of_ne hne] at hk'
      obtain ⟨hnew, hold⟩ := h.other ho hne hk'
      simp only [Cells.put, if_neg hnew, if_neg hold]
      exact h.live hk'

/-- Only what that owner has changes. -/
theorem content_put :
    (s.put k o).content = Function.update s.content k (o.map Prod.snd) := by
  funext k'
  by_cases hne : k' = k
  · rw [hne, Function.update_self]
    rcases o with _ | p
    · exact content_of_addr_eq_none (addr_put_self s k none)
    · exact (content_of_addr (addr_put_self s k (some p))).trans (if_pos rfl)
  · rw [Function.update_of_ne hne]
    have haddr := addr_put_of_ne (s := s) hne o
    rcases hk' : s.addr k' with _ | a
    · rw [content_of_addr_eq_none (haddr.trans hk'), content_of_addr_eq_none hk']
    · obtain ⟨hnew, hold⟩ := h.other ho hne hk'
      rw [content_of_addr (haddr.trans hk'), content_of_addr hk']
      simp only [Cells.put, if_neg hnew, if_neg hold]

end

/-! ## Operations on a cell -/

section

variable {s : Cells K A V} {k : K} {a : A}

/-- A new cell for an owner without one. -/
theorem put_of_none (hk : s.addr k = none) (v : V) :
    s.put k (some (a, v)) =
      ⟨Function.update s.heap a (some v), Function.update s.addr k (some a)⟩ := by
  have hheap : (s.put k (some (a, v))).heap = Function.update s.heap a (some v) := by
    funext b
    simp only [put, hk, Option.map_some, Option.some.injEq, Function.update_apply, eq_comm]
    simp
  exact congrArg (Cells.mk · _) hheap

/-- An owner without a cell remains without one. -/
theorem put_none_of_none (hk : s.addr k = none) :
    s.put k none = ⟨s.heap, Function.update s.addr k none⟩ := by
  have hheap : (s.put k none).heap = s.heap := by
    funext b
    simp only [put, hk, Option.map_none, reduceCtorEq, if_false]
  exact congrArg (Cells.mk · _) hheap

/-- A write to the cell of an owner. -/
theorem put_same (hk : s.addr k = some a) (v : V) :
    s.put k (some (a, v)) = ⟨Function.update s.heap a (some v), s.addr⟩ := by
  have hheap : (s.put k (some (a, v))).heap = Function.update s.heap a (some v) := by
    funext b
    simp only [put, hk, Option.map_some, Option.some.injEq, Function.update_apply, eq_comm]
    split_ifs <;> rfl
  have haddr : (s.put k (some (a, v))).addr = s.addr := by
    rw [put, Option.map_some, ← hk, Function.update_eq_self]
  rw [← hheap, ← haddr]

/-- The cell of an owner is freed. -/
theorem put_free (hk : s.addr k = some a) :
    s.put k none = ⟨Function.update s.heap a none, Function.update s.addr k none⟩ := by
  have hheap : (s.put k none).heap = Function.update s.heap a none := by
    funext b
    simp only [put, hk, Option.map_none, Option.some.injEq, Function.update_apply, eq_comm]
    simp
  exact congrArg (Cells.mk · _) hheap

/-- An owner moves to a new cell, and then the old one is freed. -/
theorem put_move (hk : s.addr k = some a) {b : A} (hne : b ≠ a) (v : V) :
    s.put k (some (b, v)) =
      ⟨Function.update (Function.update s.heap b (some v)) a none,
        Function.update s.addr k (some b)⟩ := by
  have hheap : (s.put k (some (b, v))).heap =
      Function.update (Function.update s.heap b (some v)) a none := by
    funext c
    simp only [put, hk, Option.map_some, Option.some.injEq, Function.update_apply]
    by_cases hb : b = c
    · subst hb
      rw [if_pos rfl, if_neg hne, if_pos rfl]
    · rw [if_neg hb, if_neg (Ne.symm hb)]
      exact if_congr eq_comm rfl rfl
  exact congrArg (Cells.mk · _) hheap

end

end Cells
