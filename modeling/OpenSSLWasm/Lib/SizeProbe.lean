import Mathlib.Data.Option.Basic
import Mathlib.Logic.Function.Iterate
import Mathlib.Tactic.Common

/-!
# Calls that are asked for a size first

A function with an output buffer is called without one to learn how much room its result takes, as
often as the caller likes, and then with a buffer of the size that was reported. The questions are
to be free of effects, and their answer large enough.

## Main definitions

* `Answer`: what a call leaves with its caller;
* `probeThenCall`: some questions for the size, and the call with the room that was reported;
* `Transparent`: the questions leave no trace, and the result is that of a direct call.

## Main results

* `transparent_iff_of_announced`: a function that announces a fixed size is transparent exactly if
  its result is never longer;
* `transparent_iff_of_measured`: a function that finds the size by computing the result, which uses
  up the state, is transparent only where it has no result.
-/

namespace SizeProbe

variable {σ α : Type*}

/-- What a call leaves with its caller. -/
inductive Answer (α : Type*)
  /-- The call failed; it may still say how much room was needed. -/
  | failed (needed : Option ℕ)
  /-- The size, to a call without a buffer. -/
  | size (n : ℕ)
  | result (r : List α)
  deriving DecidableEq

/-- The result, if the call gives one. -/
def Answer.result? : Answer α → Option (List α)
  | .failed _ => none
  | .size _ => none
  | .result r => some r

@[simp] theorem Answer.result?_failed (needed : Option ℕ) :
    (Answer.failed needed : Answer α).result? = none := rfl

@[simp] theorem Answer.result?_result (r : List α) : (Answer.result r).result? = some r := rfl

/-- The state after `n` calls without a buffer. -/
def probed (call : σ → Option ℕ → Answer α × σ) (n : ℕ) (s : σ) : σ :=
  (fun s => (call s none).2)^[n] s

/-- Ask for the size `n + 1` times, as long as there is an answer, and make the call with the room
that was reported last. -/
def probeThenCall (call : σ → Option ℕ → Answer α × σ) : ℕ → σ → Option (List α)
  | 0, s =>
    match call s none with
    | (.size room, s') => (call s' (some room)).1.result?
    | _ => none
  | n + 1, s =>
    match call s none with
    | (.size _, s') => probeThenCall call n s'
    | _ => none

/-- Asking for the size is free of effects and tells enough: against `direct`, the operation behind
the function. -/
structure Transparent (call : σ → Option ℕ → Answer α × σ) (direct : σ → Option (List α) × σ)
    (s : σ) : Prop where
  /-- The state is the same after any number of questions. -/
  unchanged : ∀ n, probed call n s = s
  /-- The size that is reported is at least that of the result which the next call has. -/
  fits : ∀ n room, (call (probed call n s) none).1 = .size room →
    ∀ r, (direct (probed call (n + 1) s)).1 = some r → r.length ≤ room
  /-- The call in the end gives what it gives without the questions. -/
  same : ∀ n, probeThenCall call n s = (direct s).1

section

variable {call : σ → Option ℕ → Answer α × σ} {direct : σ → Option (List α) × σ} {s : σ}

theorem probed_eq (h : (call s none).2 = s) (n : ℕ) : probed call n s = s :=
  Function.iterate_fixed h n

theorem Transparent.probe_eq (h : Transparent call direct s) : (call s none).2 = s :=
  h.unchanged 1

/-- A question that is answered without a trace makes no difference, however often it is asked. -/
theorem probeThenCall_of_size {room : ℕ} (h : call s none = (.size room, s)) (n : ℕ) :
    probeThenCall call n s = (call s (some room)).1.result? := by
  -- each question is asked in the same state
  induction n with
  | zero => rw [probeThenCall, h]
  | succ n ih =>
    rw [probeThenCall, h]
    exact ih

theorem probeThenCall_of_failed {needed : Option ℕ} {s' : σ}
    (h : call s none = (.failed needed, s')) (n : ℕ) : probeThenCall call n s = none := by
  cases n with
  | zero => rw [probeThenCall, h]
  | succ n => rw [probeThenCall, h]

/-- A function that announces a fixed size is transparent exactly where the result is not
longer. -/
theorem transparent_iff_of_announced {bound : ℕ} (hprobe : call s none = (.size bound, s))
    (hcall : (call s (some bound)).1.result? = (direct s).1.filter (·.length ≤ bound)) :
    Transparent call direct s ↔ ∀ r, (direct s).1 = some r → r.length ≤ bound := by
  have hs : (call s none).2 = s := by rw [hprobe]
  have hrun : ∀ n, probeThenCall call n s = (direct s).1.filter (·.length ≤ bound) :=
    fun n => (probeThenCall_of_size hprobe n).trans hcall
  constructor
  · intro h r hr
    -- a longer result would be lost for want of room
    have hfilter := h.same 0
    rw [hrun, hr, Option.filter_eq_some_iff] at hfilter
    exact of_decide_eq_true hfilter.2
  · intro hfits
    refine ⟨probed_eq hs, fun n room hroom r hr => ?_, fun n => ?_⟩
    · rw [probed_eq hs, hprobe] at hroom
      rw [probed_eq hs] at hr
      obtain rfl : bound = room := Answer.size.inj hroom
      exact hfits r hr
    · -- a result that fits is not lost
      rw [hrun]
      cases hr : (direct s).1 with
      | none => rfl
      | some r => exact Option.filter_eq_some_iff.mpr ⟨rfl, decide_eq_true (hfits r hr)⟩

/-- A function that answers the question by computing the result is transparent only where there is
none, if computing it uses up what it is computed from. -/
theorem transparent_iff_of_measured
    (hprobe : call s none = match direct s with
      | (some r, s') => (.size r.length, s')
      | (none, s') => (.failed none, s'))
    (hconsume : ∀ r, (direct s).1 = some r → (direct (direct s).2).1 = none) :
    Transparent call direct s ↔ direct s = (none, s) := by
  constructor
  · intro h
    have hs := h.probe_eq
    rw [hprobe] at hs
    rcases hd : direct s with ⟨_ | r, s'⟩
    · rw [hd] at hs
      rw [show s' = s from hs]
    · -- the state would be the same after the question, and still be used up
      rw [hd] at hs
      obtain rfl : s' = s := hs
      have hnone := hconsume r (by rw [hd])
      rw [hd, hd] at hnone
      cases hnone
  · -- where there is nothing to compute, every question is refused
    intro hd
    rw [hd] at hprobe
    have hs : (call s none).2 = s := by rw [hprobe]
    refine ⟨probed_eq hs, fun n room hroom => ?_, fun n => ?_⟩
    · rw [probed_eq hs, hprobe] at hroom
      cases hroom
    · rw [probeThenCall_of_failed hprobe, hd]

end

end SizeProbe
