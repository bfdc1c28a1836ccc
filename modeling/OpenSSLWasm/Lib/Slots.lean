import Mathlib.Data.List.Basic
import Mathlib.Tactic.Common

/-!
# Memory that is allocated and filled

An allocation is a list of slots, which hold nothing until they are written. An access behind the
last slot fails, and so does reading a slot that holds nothing.

## Main definitions

* `alloc`, `realloc`, `store`, `storeAll`, `load`: the operations on an allocation;
* `GrowArray`: a length and a capacity beside an allocation that is made larger when it is full;
* `GrowArray.putEach`: write at the length, without regard to the capacity;
* `GrowArray.Holds`: the elements that it stands for.

## Main results

* `storeAll_append`: a sequence is written from a position on, and no slot behind it;
* `GrowArray.load_putAll_ofCap`: a sequence fills an array of its own length;
* `GrowArray.Holds.putEach`: what is put for a sequence is there in order, if there is room;
* `GrowArray.push_of_holds`: a push succeeds and adds one element at the end.
-/

namespace Slots

variable {α : Type*}

/-- Slots that hold nothing. -/
def alloc (n : ℕ) : List (Option α) := List.replicate n none

/-- More slots, or fewer. -/
def realloc (slots : List (Option α)) (n : ℕ) : List (Option α) :=
  slots.take n ++ alloc (n - slots.length)

/-- Write to one slot. -/
def store (slots : List (Option α)) (i : ℕ) (a : α) : Option (List (Option α)) :=
  if i < slots.length then some (slots.set i (some a)) else none

/-- Write a sequence, from one slot on. -/
def storeAll (slots : List (Option α)) (i : ℕ) : List α → Option (List (Option α))
  | [] => some slots
  | a :: as => (store slots i a).bind fun slots => storeAll slots (i + 1) as

/-- Read the first slots. -/
def load : List (Option α) → ℕ → Option (List α)
  | _, 0 => some []
  | some a :: slots, n + 1 => (load slots n).map (a :: ·)
  | _, _ => none

@[simp] theorem length_alloc (n : ℕ) : (alloc n : List (Option α)).length = n := by
  simp [alloc]

theorem realloc_of_le {slots : List (Option α)} {n : ℕ} (h : slots.length ≤ n) :
    realloc slots n = slots ++ alloc (n - slots.length) := by
  rw [realloc, List.take_of_length_le h]

theorem store_append (before : List (Option α)) (x : Option α) (behind : List (Option α)) (a : α) :
    store (before ++ x :: behind) before.length a = some (before ++ some a :: behind) := by
  simp [store]

/-- A sequence is written to the slots from a position on, if there are enough of them. -/
theorem storeAll_append (before behind : List (Option α)) (as : List α)
    (h : as.length ≤ behind.length) :
    storeAll (before ++ behind) before.length as =
      some (before ++ as.map some ++ behind.drop as.length) := by
  induction as generalizing before behind with
  | nil => simp [storeAll]
  | cons a as ih =>
    rcases behind with _ | ⟨x, behind⟩
    · simp at h
    · -- the slot that was just written counts as one of those before
      have hstep := ih (before ++ [some a]) behind (by simpa using h)
      rw [List.length_append, List.length_singleton] at hstep
      rw [storeAll, store_append, Option.bind_some, List.append_cons before (some a), hstep]
      simp

/-- Two sequences are written one after the other as one. -/
theorem storeAll_append_right (slots : List (Option α)) (i : ℕ) (as bs : List α) :
    storeAll slots i (as ++ bs) =
      (storeAll slots i as).bind fun slots => storeAll slots (i + as.length) bs := by
  induction as generalizing slots i with
  | nil => rfl
  | cons a as ih =>
    rw [List.cons_append, storeAll, storeAll, Option.bind_assoc, List.length_cons,
      Nat.add_comm as.length, ← Nat.add_assoc]
    congr 1
    funext slots
    exact ih slots (i + 1)

/-- What was written can be read. -/
theorem load_append (as : List α) (behind : List (Option α)) :
    load (as.map some ++ behind) as.length = some as := by
  induction as with
  | nil => simp [load]
  | cons a as ih => simp [load, ih]

/-- A sequence that is written to a new allocation with enough slots can be read from it. -/
theorem load_storeAll_alloc (as : List α) {n : ℕ} (h : as.length ≤ n) :
    ((storeAll (alloc n) 0 as).bind fun slots => load slots as.length) = some as := by
  have hstore := storeAll_append [] (alloc n) as (by rwa [length_alloc])
  rw [List.nil_append, List.length_nil, List.nil_append] at hstore
  rw [hstore, Option.bind_some, load_append]

end Slots

open Slots

/-- An array that is made larger when an element is added and no slot is free. -/
structure GrowArray (α : Type*) where
  slots : List (Option α)
  len : ℕ
  cap : ℕ

namespace GrowArray

variable {α : Type*}

/-- An array with some slots and no elements. -/
def ofCap (n : ℕ) : GrowArray α := { slots := alloc n, len := 0, cap := n }

/-- Add an element. `grow` gives the capacity that follows a capacity that is used up. -/
def push (grow : ℕ → ℕ) (g : GrowArray α) (a : α) : Option (GrowArray α) :=
  -- the new slots come behind those in use
  let g := if g.len = g.cap then
    { g with slots := realloc g.slots (grow g.cap), cap := grow g.cap } else g
  (store g.slots g.len a).map fun slots => { g with slots := slots, len := g.len + 1 }

/-- Write to the next slot, without asking whether there is one. -/
def put (g : GrowArray α) (a : α) : Option (GrowArray α) :=
  (store g.slots g.len a).map fun slots => { g with slots := slots, len := g.len + 1 }

/-- Copy a sequence to the next slots. -/
def putAll (g : GrowArray α) (as : List α) : Option (GrowArray α) :=
  (storeAll g.slots g.len as).map fun slots => { g with slots := slots, len := g.len + as.length }

/-- Go through a sequence, and put what there is to put for each of it. -/
def putEach {β : Type*} (f : β → Option α) : List β → GrowArray α → Option (GrowArray α)
  | [], g => some g
  | b :: bs, g =>
    match f b with
    | none => putEach f bs g
    | some a => (g.put a).bind (putEach f bs)

/-- The elements of an array, if they can be read. -/
def elements (g : GrowArray α) : Option (List α) := load g.slots g.len

/-- The array stands for the given elements, and there are as many slots as it has capacity. -/
structure Holds (g : GrowArray α) (as : List α) : Prop where
  cap : g.cap = g.slots.length
  len : g.len = as.length
  slots : ∃ behind, g.slots = as.map some ++ behind

theorem Holds.len_le_cap {g : GrowArray α} {as : List α} (h : g.Holds as) : g.len ≤ g.cap := by
  obtain ⟨behind, hslots⟩ := h.slots
  rw [h.cap, h.len, hslots, List.length_append, List.length_map]
  exact Nat.le_add_right _ _

theorem Holds.elements {g : GrowArray α} {as : List α} (h : g.Holds as) :
    g.elements = some as := by
  obtain ⟨behind, hslots⟩ := h.slots
  rw [GrowArray.elements, hslots, h.len, load_append]

theorem put_eq_putAll (g : GrowArray α) (a : α) : g.put a = g.putAll [a] := by
  rw [put, putAll, storeAll]
  rcases store g.slots g.len a with _ | slots <;> rfl

/-- What is copied in two goes is copied in one. -/
theorem bind_putAll_putAll {β : Type*} (g : GrowArray α) (as bs : List α)
    (k : GrowArray α → Option β) :
    ((g.putAll as).bind fun g => (g.putAll bs).bind k) = (g.putAll (as ++ bs)).bind k := by
  rw [putAll, putAll, storeAll_append_right]
  rcases storeAll g.slots g.len as with _ | slots
  · rfl
  · simp only [Option.map_some, Option.bind_some, putAll, List.length_append, Nat.add_assoc]

/-- A sequence fills an array of its own length. -/
theorem load_putAll_ofCap (as : List α) :
    (((ofCap as.length).putAll as).bind fun g => load g.slots as.length) = some as := by
  have hload := load_storeAll_alloc as (Nat.le_refl as.length)
  rw [putAll, ofCap, Option.bind_map]
  exact hload

theorem holds_ofCap (n : ℕ) : (ofCap n : GrowArray α).Holds [] := by
  refine ⟨?_, rfl, alloc n, rfl⟩
  simp [ofCap]

/-- An array that is not full takes an element in its next slot. -/
theorem Holds.store {g : GrowArray α} {as : List α} (h : g.Holds as) (hlt : g.len < g.cap) (a : α) :
    ∃ slots, Slots.store g.slots g.len a = some slots ∧
      Holds { g with slots := slots, len := g.len + 1 } (as ++ [a]) := by
  obtain ⟨behind, hslots⟩ := h.slots
  rw [h.cap, hslots, h.len, List.length_append, List.length_map] at hlt
  -- the slot behind the elements is there
  rcases behind with _ | ⟨x, behind⟩
  · simp at hlt
  · have hstore := store_append (as.map some) x behind a
    rw [← hslots, List.length_map, ← h.len] at hstore
    refine ⟨_, hstore, ?_, ?_, behind, by simp⟩
    · simp [h.cap, hslots]
    · simp [h.len]

theorem Holds.put {g : GrowArray α} {as : List α} (h : g.Holds as) (hlt : g.len < g.cap) (a : α) :
    ∃ g', g.put a = some g' ∧ g'.Holds (as ++ [a]) ∧ g'.cap = g.cap := by
  obtain ⟨slots, hstore, hholds⟩ := h.store hlt a
  exact ⟨_, by rw [GrowArray.put, hstore, Option.map_some], hholds, rfl⟩

/-- A sequence is copied behind the elements if there are slots for it. -/
theorem Holds.putAll {g : GrowArray α} {as : List α} (h : g.Holds as) {bs : List α}
    (hroom : g.len + bs.length ≤ g.cap) :
    ∃ g', g.putAll bs = some g' ∧ g'.Holds (as ++ bs) ∧ g'.cap = g.cap := by
  obtain ⟨behind, hslots⟩ := h.slots
  have hcap := h.cap
  have hlen := h.len
  have hbehind : bs.length ≤ behind.length := by
    rw [hslots, List.length_append, List.length_map] at hcap
    omega
  have hstore := storeAll_append (as.map some) behind bs hbehind
  rw [← hslots, List.length_map, ← h.len] at hstore
  refine ⟨{ g with
    slots := as.map some ++ bs.map some ++ behind.drop bs.length, len := g.len + bs.length },
    by rw [GrowArray.putAll, hstore, Option.map_some], ⟨?_, ?_, ?_⟩, rfl⟩
  · simp only [hcap, hslots, List.length_append, List.length_map, List.length_drop]
    omega
  · simp only [List.length_append, h.len]
  · exact ⟨behind.drop bs.length, by rw [List.map_append]⟩

/-- A sequence can be gone through if there is a slot for all that is put, which comes in order
behind the elements before. -/
theorem Holds.putEach {β : Type*} {f : β → Option α} {bs : List β} {g : GrowArray α} {as : List α}
    (h : g.Holds as) (hroom : as.length + (bs.filterMap f).length ≤ g.cap) :
    ∃ g', g.putEach f bs = some g' ∧ g'.Holds (as ++ bs.filterMap f) ∧ g'.cap = g.cap := by
  induction bs generalizing g as with
  | nil => exact ⟨g, rfl, by simpa using h, rfl⟩
  | cons b bs ih =>
    rw [GrowArray.putEach]
    rcases hb : f b with _ | a
    · rw [List.filterMap_cons_none hb] at hroom ⊢
      exact ih h hroom
    · rw [List.filterMap_cons_some hb, List.length_cons] at hroom
      have hlt : g.len < g.cap := by
        rw [h.len]
        omega
      obtain ⟨g₁, hput, hholds, hcap⟩ := h.put hlt a
      -- what was put counts as one of the elements before
      obtain ⟨g₂, hrest, hholds, hcap'⟩ := ih hholds (by
        rw [hcap, List.length_append, List.length_singleton]
        omega)
      refine ⟨g₂, ?_, ?_, hcap'.trans hcap⟩
      · simp only [hput, Option.bind_some, hrest]
      · rwa [List.filterMap_cons_some hb, List.append_cons]

/-- Making a full array larger keeps its elements. -/
theorem Holds.realloc {g : GrowArray α} {as : List α} (h : g.Holds as) {n : ℕ} (hn : g.cap ≤ n) :
    Holds { g with slots := realloc g.slots n, cap := n } as := by
  rw [h.cap] at hn
  rw [realloc_of_le hn]
  obtain ⟨behind, hslots⟩ := h.slots
  refine ⟨?_, h.len, behind ++ alloc (n - g.slots.length), by rw [hslots, List.append_assoc]⟩
  simp only [List.length_append, length_alloc]
  omega

/-- A push succeeds and adds one element at the end, if growing makes room. -/
theorem push_of_holds {grow : ℕ → ℕ} {g : GrowArray α} {as : List α} (h : g.Holds as)
    (hgrow : g.cap < grow g.cap) (a : α) :
    ∃ g', g.push grow a = some g' ∧ g'.Holds (as ++ [a]) ∧ g.cap ≤ g'.cap := by
  rw [push]
  by_cases hfull : g.len = g.cap
  · -- after growing there is a free slot
    have hlt : g.len < grow g.cap := hfull ▸ hgrow
    obtain ⟨slots, hstore, hholds⟩ := (h.realloc (Nat.le_of_lt hgrow)).store hlt a
    simp only [if_pos hfull]
    exact ⟨_, by rw [hstore, Option.map_some], hholds, Nat.le_of_lt hgrow⟩
  · have hlt : g.len < g.cap := Nat.lt_of_le_of_ne h.len_le_cap hfull
    obtain ⟨slots, hstore, hholds⟩ := h.store hlt a
    simp only [if_neg hfull]
    exact ⟨_, by rw [hstore, Option.map_some], hholds, Nat.le_refl _⟩

end GrowArray
