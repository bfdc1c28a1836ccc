import Mathlib.Data.List.Infix
import Mathlib.Tactic.Common

/-!
# Searching a list for a pattern

The first place of a list where a pattern starts, and what follows the pattern there. Lists are often
made of parts with separators between them, which a pattern does not contain.

## Main definitions

* `locate`: the list from the first occurrence on;
* `after`: what follows the first occurrence.

## Main results

* `after_append_cons`: a search passes from one part to the next;
* `after_append_mark`: the search for a pattern that ends with a mark, in a list with a mark.
-/

namespace Search

variable {α : Type*} {pat l r : List α} {x : α}

/-- A pattern without the separator does not reach past it. -/
theorem prefix_append_cons_iff (hx : x ∉ pat) : pat <+: l ++ x :: r ↔ pat <+: l := by
  induction l generalizing pat with
  | nil =>
    rcases pat with _ | ⟨p, ps⟩
    · simp
    · have hne : p ≠ x := fun h => hx (h ▸ List.mem_cons_self)
      simp [hne]
  | cons b l ih =>
    rcases pat with _ | ⟨p, ps⟩
    · simp
    · rw [List.cons_append, List.cons_prefix_cons, List.cons_prefix_cons,
        ih fun h => hx (List.mem_cons_of_mem p h)]

/-- Up to the first mark, only the whole of what is in front of it can be the pattern. -/
theorem append_mark_prefix_iff {w n v : List α} (hw : x ∉ w) (hn : x ∉ n) :
    w ++ [x] <+: n ++ x :: v ↔ w = n := by
  induction n generalizing w with
  | nil =>
    rcases w with _ | ⟨p, ps⟩
    · simp
    · have hne : p ≠ x := fun h => hw (h ▸ List.mem_cons_self)
      simp [hne]
  | cons b n ih =>
    have hb : x ≠ b := fun h => hn (h ▸ List.mem_cons_self)
    rcases w with _ | ⟨p, ps⟩
    · simp [hb]
    · have hps : x ∉ ps := fun h => hw (List.mem_cons_of_mem p h)
      have hns : x ∉ n := fun h => hn (List.mem_cons_of_mem b h)
      rw [List.cons_append, List.cons_append, List.cons_prefix_cons, ih hps hns, List.cons.injEq]

variable [DecidableEq α]

/-- The list from the first occurrence of the pattern on. -/
def locate (pat l : List α) : Option (List α) := l.tails.find? (pat <+: ·)

/-- What follows the first occurrence of the pattern. -/
def after (pat l : List α) : Option (List α) := (locate pat l).map (·.drop pat.length)

theorem after_nil (hpat : pat ≠ []) : after pat [] = none := by
  simp [after, locate, List.prefix_nil, hpat]

theorem after_cons (b : α) (l : List α) :
    after pat (b :: l) =
      if pat <+: b :: l then some ((b :: l).drop pat.length) else after pat l := by
  rw [after, locate, List.tails_cons, List.find?_cons, after, locate]
  by_cases h : pat <+: b :: l <;> simp [h]

/-- There is one exactly if the pattern occurs. -/
theorem isSome_after_iff : (after pat l).isSome = true ↔ pat <:+: l := by
  rw [after, Option.isSome_map, locate, List.find?_isSome]
  simp only [List.mem_tails, decide_eq_true_eq]
  rw [List.infix_iff_prefix_suffix]
  exact exists_congr fun t => and_comm

theorem after_eq_none_of_notMem (hx : x ∈ pat) (hl : x ∉ l) : after pat l = none := by
  rw [← Option.not_isSome_iff_eq_none, isSome_after_iff]
  exact fun h => hl (h.subset hx)

/-- The first occurrence is in front of a separator, or the first one behind it. -/
theorem after_append_cons (hpat : pat ≠ []) (hx : x ∉ pat) (l r : List α) :
    after pat (l ++ x :: r) = ((after pat l).map (· ++ x :: r)).or (after pat r) := by
  induction l with
  | nil =>
    -- the pattern does not start with the separator
    have hnil : ¬pat <+: x :: r := by
      rw [← List.nil_append (x :: r), prefix_append_cons_iff hx, List.prefix_nil]
      exact hpat
    rw [List.nil_append, after_cons, if_neg hnil, after_nil hpat, Option.map_none, Option.none_or]
  | cons b l ih =>
    have hstart := prefix_append_cons_iff (l := b :: l) (r := r) hx
    rw [List.cons_append] at hstart ⊢
    rw [after_cons, after_cons, ih]
    -- it starts here, or the search goes on
    by_cases h : pat <+: b :: l
    · rw [if_pos (hstart.mpr h), if_pos h, Option.map_some, Option.some_or, ← List.cons_append,
        List.drop_append_of_le_length h.length_le]
    · rw [if_neg (mt hstart.mp h), if_neg h]

/-- A pattern that ends with a mark is found at the first mark, or behind it. -/
theorem after_append_mark {w n v : List α} (hw : x ∉ w) (hn : x ∉ n) :
    after (w ++ [x]) (n ++ x :: v) = if w <:+ n then some v else after (w ++ [x]) v := by
  induction n with
  | nil =>
    have hstart := append_mark_prefix_iff (v := v) hw hn
    rw [List.nil_append] at hstart ⊢
    rw [after_cons]
    simp only [hstart, List.suffix_nil]
    by_cases h : w = [] <;> simp [h]
  | cons b n ih =>
    have hns : x ∉ n := fun h => hn (List.mem_cons_of_mem b h)
    have hstart := append_mark_prefix_iff (v := v) hw hn
    rw [List.cons_append] at hstart ⊢
    rw [after_cons, ih hns]
    simp only [hstart, List.suffix_cons_iff]
    -- an end of what is in front of the mark is all of it, or an end of the rest
    by_cases h : w = b :: n
    · subst h
      simp
    · simp [h]

end Search
