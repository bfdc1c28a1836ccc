import Mathlib.Data.List.Basic
import Mathlib.Data.List.Induction
import Mathlib.Tactic.Common

/-!
# Transcripts of objects with state

An object that answers calls and changes its state with each. A run makes a list of calls; its
transcript pairs each call with the answer.

## Main definitions

* `run`: the transcript of a list of calls and the state they lead to;
* `Along`: every call of a run satisfies a condition in the state in which it is made.

## Main results

* `run_invariant`: what one call preserves, for the state and the transcript so far, a run
  preserves; by `run_invariant_along` the calls need to preserve it under a condition only, if it
  holds along the run;
* `along_iff_along`: conditions that agree in all states of a run hold along it alike;
* `run_forall`: what every answer satisfies;
* `forall_prefix_iff`: what holds all along a run, in terms of its calls;
* `run_filter`: the visible part of a run is a run of an object that gets nothing else.
-/

namespace Transcript

variable {σ τ ι ω : Type*}

/-- Make calls one after the other. -/
def run (step : σ → ι → ω × σ) (s : σ) : List ι → List (ι × ω) × σ
  | [] => ([], s)
  | i :: is => ((i, (step s i).1) :: (run step (step s i).2 is).1, (run step (step s i).2 is).2)

/-- Each call is made in a state in which it satisfies a condition. -/
def Along (step : σ → ι → ω × σ) (P : σ → ι → Prop) (s : σ) : List ι → Prop
  | [] => True
  | i :: is => P s i ∧ Along step P (step s i).2 is

instance decidableAlong (step : σ → ι → ω × σ) (P : σ → ι → Prop) [∀ s, DecidablePred (P s)] :
    ∀ (s : σ) (is : List ι), Decidable (Along step P s is)
  | _, [] => isTrue trivial
  | s, i :: is =>
    haveI := decidableAlong step P (step s i).2 is
    inferInstanceAs (Decidable (P s i ∧ Along step P (step s i).2 is))

section

variable (step : σ → ι → ω × σ)

@[simp] theorem run_nil (s : σ) : run step s [] = ([], s) := rfl

@[simp] theorem run_cons (s : σ) (i : ι) (is : List ι) :
    run step s (i :: is) =
      ((i, (step s i).1) :: (run step (step s i).2 is).1, (run step (step s i).2 is).2) := rfl

/-- The calls of a transcript are those that were made. -/
theorem map_fst_run (s : σ) (is : List ι) : (run step s is).1.map Prod.fst = is := by
  induction is generalizing s with
  | nil => rfl
  | cons i is ih => simp [ih]

/-- Each answer of a transcript was given to its call in some state. -/
theorem exists_of_mem_run {s : σ} {is : List ι} {a : ι × ω} (h : a ∈ (run step s is).1) :
    a.1 ∈ is ∧ ∃ t, a.2 = (step t a.1).1 := by
  induction is generalizing s with
  | nil => cases h
  | cons i is ih =>
    rw [run_cons] at h
    rcases List.mem_cons.mp h with rfl | h
    · exact ⟨List.mem_cons_self, s, rfl⟩
    · obtain ⟨hmem, ht⟩ := ih h
      exact ⟨List.mem_cons_of_mem _ hmem, ht⟩

/-- The state after one more call. -/
theorem snd_run_concat (s : σ) (is : List ι) (i : ι) :
    (run step s (is ++ [i])).2 = (step (run step s is).2 i).2 := by
  induction is generalizing s with
  | nil => rfl
  | cons j is ih => exact ih (step s j).2

end

section Invariant

variable {step : σ → ι → ω × σ}

/-- A relation between transcript and state that the calls of a run carry on holds after it. -/
theorem run_invariant_along {I : List (ι × ω) → σ → Prop} {P : σ → ι → Prop}
    (hstep : ∀ t s i, I t s → P s i → I (t ++ [(i, (step s i).1)]) (step s i).2)
    {t : List (ι × ω)} {s : σ} (h : I t s) {is : List ι} (hP : Along step P s is) :
    I (t ++ (run step s is).1) (run step s is).2 := by
  induction is generalizing t s with
  | nil => simpa using h
  | cons i is ih =>
    obtain ⟨hi, his⟩ := hP
    -- what was answered so far belongs to the transcript
    have h' := ih (hstep t s i h hi) his
    rwa [List.append_assoc] at h'

theorem along_true (s : σ) (is : List ι) : Along step (fun _ _ => True) s is := by
  induction is generalizing s with
  | nil => trivial
  | cons i is ih => exact ⟨trivial, ih _⟩

/-- What all calls satisfy in every state holds along a run. -/
theorem along_of_forall {P : σ → ι → Prop} {is : List ι} (h : ∀ i ∈ is, ∀ s, P s i) (s : σ) :
    Along step P s is := by
  induction is generalizing s with
  | nil => trivial
  | cons i is ih =>
    exact ⟨h i List.mem_cons_self s, ih (fun j hj => h j (List.mem_cons_of_mem i hj)) _⟩

/-- Two conditions that agree in the states with a property that is preserved hold along the same
runs. -/
theorem along_iff_along {I : σ → Prop} {P Q : σ → ι → Prop} (hI : ∀ s i, I s → I (step s i).2)
    (hPQ : ∀ s i, I s → (P s i ↔ Q s i)) {s : σ} (hs : I s) (is : List ι) :
    Along step P s is ↔ Along step Q s is := by
  induction is generalizing s with
  | nil => exact Iff.rfl
  | cons i is ih => exact and_congr (hPQ s i hs) (ih (hI s i hs))

/-- A relation between transcript and state that every call carries on holds after a run. -/
theorem run_invariant {I : List (ι × ω) → σ → Prop}
    (hstep : ∀ t s i, I t s → I (t ++ [(i, (step s i).1)]) (step s i).2)
    {t : List (ι × ω)} {s : σ} (h : I t s) (is : List ι) :
    I (t ++ (run step s is).1) (run step s is).2 :=
  run_invariant_along (fun t s i h _ => hstep t s i h) h (along_true s is)

/-- A property of states that every call preserves holds after a run. -/
theorem run_preserves {I : σ → Prop} (hstep : ∀ s i, I s → I (step s i).2) {s : σ} (h : I s)
    (is : List ι) : I (run step s is).2 :=
  run_invariant (I := fun _ s => I s) (t := []) (fun _ s i => hstep s i) h is

/-- What holds of every answer that is given in a state with some property, if the property is
preserved, holds of all answers of a run. -/
theorem run_forall {I : σ → Prop} {P : ι → ω → Prop}
    (hstep : ∀ s i, I s → P i (step s i).1 ∧ I (step s i).2) {s : σ} (h : I s) (is : List ι) :
    (∀ p ∈ (run step s is).1, P p.1 p.2) ∧ I (run step s is).2 := by
  refine run_invariant (I := fun t s => (∀ p ∈ t, P p.1 p.2) ∧ I s) (t := []) ?_ ⟨by simp, h⟩ is
  rintro t s i ⟨ht, hs⟩
  obtain ⟨hP, hI⟩ := hstep s i hs
  refine ⟨fun p hp => ?_, hI⟩
  rcases List.mem_append.mp hp with hp | hp
  · exact ht p hp
  · rw [List.mem_singleton.mp hp]
    exact hP

/-- If a call preserves a property of states exactly under a condition, then the property holds all
along a run exactly if every call is made under its condition. -/
theorem forall_prefix_iff {I : σ → Prop} {C : σ → ι → Prop}
    (hstep : ∀ s i, I s → (I (step s i).2 ↔ C s i)) {s : σ} (h : I s) (is : List ι) :
    (∀ before after, is = before ++ after → I (run step s before).2) ↔
      ∀ before i after, is = before ++ i :: after → C (run step s before).2 i := by
  constructor
  · rintro hI before i after rfl
    have hnext := hI (before ++ [i]) after (by simp)
    rw [snd_run_concat] at hnext
    exact (hstep _ i (hI before (i :: after) rfl)).mp hnext
  · -- the calls that were made are built up one at a time
    intro hC before
    induction before using List.reverseRecOn with
    | nil =>
      intro _ _
      exact h
    | append_singleton before i ih =>
      rintro after rfl
      rw [snd_run_concat]
      refine (hstep _ i (ih (i :: after) (by simp))).mpr ?_
      exact hC before i after (by simp)

/-- The calls that are visible, as answered by one object among others that are not, are answered
by another object that gets only those: visible calls are answered alike and keep the states
related, and the others do not get in the way. What the visible calls rely on need only hold where
they are made. -/
theorem run_filter {step' : τ → ι → ω × τ} {R : σ → τ → Prop} {visible : ι → Bool}
    {P : σ → ι → Prop}
    (hvisible : ∀ s t i, R s t → P s i → visible i = true →
      (step s i).1 = (step' t i).1 ∧ R (step s i).2 (step' t i).2)
    (hother : ∀ s t i, R s t → visible i = false → R (step s i).2 t)
    {s : σ} {t : τ} (h : R s t) {is : List ι}
    (hP : ∀ before i after, is = before ++ i :: after → P (run step s before).2 i) :
    (run step s is).1.filter (fun p => visible p.1) = (run step' t (is.filter visible)).1 := by
  induction is generalizing s t with
  | nil => rfl
  | cons i is ih =>
    have hhead : P s i := hP [] i is rfl
    have htail : ∀ before j after, is = before ++ j :: after →
        P (run step (step s i).2 before).2 j := by
      rintro before j after rfl
      exact hP (i :: before) j after rfl
    rw [run_cons, List.filter_cons, List.filter_cons]
    by_cases hi : visible i = true
    · obtain ⟨hω, hR⟩ := hvisible s t i h hhead hi
      rw [if_pos hi, if_pos hi, run_cons, ih hR htail, hω]
    · rw [if_neg hi, if_neg hi]
      exact ih (hother s t i h (Bool.eq_false_iff.mpr hi)) htail

end Invariant

end Transcript
