import Mathlib.Algebra.GroupWithZero.Nat
import Mathlib.Tactic.Common

/-!
# Settings made one after the other

An object is configured by a list of calls. It may refuse each of them, which leaves it as it was;
a program that does not look at the answers goes on, and ends with a part of the settings.

## Main definitions

* `Setters`: which calls an object takes, and what a call that is taken does;
* `attemptAll`: make all calls and ignore the answers;
* `Takes`: the object takes every call, each of them after all before it.

## Main results

* `attemptAll_of_takes`: where all calls are taken, all settings are made;
* `proj_attemptAll`: what no call changes stays as it is;
* `takes_of_weight`: they were all taken if the object shows as many settings as there were calls.
-/

/-- An object with states `σ` that is configured by calls `ρ`. -/
structure Setters (σ ρ : Type*) where
  accepts : σ → ρ → Bool
  set : ρ → σ → σ

namespace Setters

variable {σ ρ : Type*} (A : Setters σ ρ)

/-- A call, with its answer. -/
def attempt (r : ρ) (s : σ) : Bool × σ :=
  if A.accepts s r then (true, A.set r s) else (false, s)

/-- All calls in turn, whatever the answers are. -/
def attemptAll (rs : List ρ) (s : σ) : σ := rs.foldl (fun s r => (A.attempt r s).2) s

/-- All settings in turn, as if nothing could be refused. -/
def setAll (rs : List ρ) (s : σ) : σ := rs.foldl (fun s r => A.set r s) s

/-- Every call is taken. What counts is the state that all calls before it were made for. -/
def Takes : List ρ → σ → Prop
  | [], _ => True
  | r :: rs, s => A.accepts s r = true ∧ Takes rs (A.set r s)

@[simp] theorem attemptAll_nil (s : σ) : A.attemptAll [] s = s := rfl

@[simp] theorem attemptAll_cons (r : ρ) (rs : List ρ) (s : σ) :
    A.attemptAll (r :: rs) s = A.attemptAll rs (A.attempt r s).2 := rfl

theorem attemptAll_append (rs ts : List ρ) (s : σ) :
    A.attemptAll (rs ++ ts) s = A.attemptAll ts (A.attemptAll rs s) := by
  rw [attemptAll, List.foldl_append, ← attemptAll, ← attemptAll]

@[simp] theorem setAll_nil (s : σ) : A.setAll [] s = s := rfl

@[simp] theorem setAll_cons (r : ρ) (rs : List ρ) (s : σ) :
    A.setAll (r :: rs) s = A.setAll rs (A.set r s) := rfl

@[simp] theorem setAll_append (rs ts : List ρ) (s : σ) :
    A.setAll (rs ++ ts) s = A.setAll ts (A.setAll rs s) := by
  rw [setAll, List.foldl_append, ← setAll, ← setAll]

theorem attempt_snd_of_accepts {r : ρ} {s : σ} (h : A.accepts s r = true) :
    (A.attempt r s).2 = A.set r s := by
  rw [attempt, if_pos h]

theorem attempt_snd_of_not_accepts {r : ρ} {s : σ} (h : ¬A.accepts s r = true) :
    (A.attempt r s).2 = s := by
  rw [attempt, if_neg h]

/-- Where all calls are taken, all settings are made. -/
theorem attemptAll_of_takes {rs : List ρ} {s : σ} (h : A.Takes rs s) :
    A.attemptAll rs s = A.setAll rs s := by
  induction rs generalizing s with
  | nil => rfl
  | cons r rs ih =>
    obtain ⟨hr, hrs⟩ := h
    rw [attemptAll_cons, attempt_snd_of_accepts A hr, ih hrs, setAll_cons]

/-- What no call changes is not changed by all of them, whichever are taken. -/
theorem proj_attemptAll {β : Type*} {f : σ → β} {rs : List ρ}
    (h : ∀ r ∈ rs, ∀ s, f (A.set r s) = f s) (s : σ) : f (A.attemptAll rs s) = f s := by
  induction rs generalizing s with
  | nil => rfl
  | cons r rs ih =>
    rw [attemptAll_cons, ih fun r hr => h r (List.mem_cons_of_mem _ hr)]
    -- a refused call changes nothing at all
    by_cases hr : A.accepts s r = true
    · rw [attempt_snd_of_accepts A hr, h r List.mem_cons_self]
    · rw [attempt_snd_of_not_accepts A hr]

section weight

variable {w : σ → ℕ} {gain : ρ → ℕ}

/-- What is gained is never more than the calls are worth. -/
theorem weight_attemptAll_le (hw : ∀ r s, w (A.set r s) ≤ w s + gain r) (rs : List ρ) (s : σ) :
    w (A.attemptAll rs s) ≤ w s + (rs.map gain).sum := by
  induction rs generalizing s with
  | nil => simp
  | cons r rs ih =>
    rw [attemptAll_cons, List.map_cons, List.sum_cons]
    have hrs := ih (A.attempt r s).2
    by_cases h : A.accepts s r = true
    · rw [attempt_snd_of_accepts A h] at hrs ⊢
      have := hw r s
      omega
    · rw [attempt_snd_of_not_accepts A h] at hrs ⊢
      omega

/-- If a weight has grown by all that the calls are worth, then they were all taken. Calls that are
worth nothing are not seen by the weight, and have to be known to be taken. -/
theorem takes_of_weight (hw : ∀ r s, w (A.set r s) ≤ w s + gain r)
    (hfree : ∀ r s, gain r = 0 → A.accepts s r = true) {rs : List ρ} {s : σ}
    (h : w s + (rs.map gain).sum ≤ w (A.attemptAll rs s)) : A.Takes rs s := by
  induction rs generalizing s with
  | nil => trivial
  | cons r rs ih =>
    rw [attemptAll_cons, List.map_cons, List.sum_cons] at h
    have hrs := A.weight_attemptAll_le hw rs (A.attempt r s).2
    -- a refused call leaves too little for the others to make up
    have hr : A.accepts s r = true := by
      by_contra hr
      have := mt (hfree r s) hr
      rw [attempt_snd_of_not_accepts A hr] at h hrs
      omega
    rw [attempt_snd_of_accepts A hr] at h
    have := hw r s
    exact ⟨hr, ih (by omega)⟩

end weight

end Setters
