import OpenSSLWasm.X509.Options
import OpenSSLWasm.X509.Timestamps

/-!
# The time of a verification

The options of `verify_chain` have a time at which the chain is to be verified. This file looks at
the verification of libcrypto as a sequence of checks, some of which compare the time with a period,
and at the time that they are given.

## Main definitions

* `Check` and `TimedX509`: the checks, and the verification that they make up;
* `verifyChainAt`: the call, at a time of the clock;
* `verdictAt`: what the chain is worth at a time;
* `AtHonoured`: the call gives the verdict at the time of its options.

## Main results

* `verdictAt_eq_ok` and `verdictAt_eq_error`: a verdict is about the periods of the certificates;
* `atHonoured_iff`: when the verdict is the one at the time that was asked for.
-/

namespace OpenSSLWasm.X509

open Calendar

/-! ## Checks -/

/-- One of the checks of `X509_verify_cert`. -/
inductive Check
  /-- A check that does not depend on the time, and its error. -/
  | outcome (e : Option VerifyError)
  /-- A period of validity, and the errors before and after. -/
  | period (notBefore notAfter : ℤ) (early late : VerifyError)
  deriving DecidableEq

/-- The error of a check at a time. -/
def Check.failure (t : ℤ) : Check → Option VerifyError
  | .outcome e => e
  -- for `X509_cmp_time`, the last second is past
  | .period notBefore notAfter early late =>
    if t < notBefore then some early else if notAfter ≤ t then some late else none

/-- The verification of libcrypto, over types `κ` of stores and `C` of certificates: the checks of a
chain, in their order. -/
structure TimedX509 (κ C : Type) where
  base : X509Lib κ C
  chain : κ → C → List C → VerifyParam → List C
  checks : κ → C → List C → VerifyParam → List Check
  notBefore : C → ℤ
  notAfter : C → ℤ
  /-- The periods of all certificates of the chain are among the checks. -/
  period_mem : ∀ {store leaf untrusted vp c}, c ∈ chain store leaf untrusted vp →
    .period (notBefore c) (notAfter c) .certNotYetValid .certHasExpired ∈
      checks store leaf untrusted vp

section

variable {κ C : Type} (V : TimedX509 κ C)

/-- `X509_verify_cert`, at the time of the verification. -/
def TimedX509.lib (t : ℤ) : X509Lib κ C :=
  { V.base with
    verifyCert := fun store leaf untrusted vp =>
      match (V.checks store leaf untrusted vp).findSome? (Check.failure t) with
      | some e => .error e
      | none => .ok (V.chain store leaf untrusted vp) }

/-- The time of a verification: the one that was set with `X509_VERIFY_PARAM_set_time`, or else that
of the clock. -/
def effectiveTime (setTime : Option ℤ) (now : ℤ) : ℤ := setTime.getD now

/-- `verify_chain`, which does not set a time. -/
def verifyChainAt (now : ℤ) (store : κ) (leaf : C) (extra : List C) (opts : VerifyOptions) :
    Except X509Error (List C) :=
  verifyChain (V.lib (effectiveTime none now)) store leaf extra opts

/-- What the chain is worth at a time. -/
def verdictAt (t : ℤ) (store : κ) (leaf : C) (extra : List C) (opts : VerifyOptions) :
    Except X509Error (List C) :=
  verifyChain (V.lib t) store leaf extra opts

/-- The chain that is verified in a call. -/
def TimedX509.chainOf (store : κ) (leaf : C) (extra : List C) (opts : VerifyOptions) : List C :=
  V.chain store leaf (V.base.storeGetUntrusted store ++ extra) (verifyParam V.base.identity opts)

/-- The checks that are made in a call. -/
def TimedX509.checksOf (store : κ) (leaf : C) (extra : List C) (opts : VerifyOptions) :
    List Check :=
  V.checks store leaf (V.base.storeGetUntrusted store ++ extra) (verifyParam V.base.identity opts)

/-- The verification of a call can be initialised. -/
def TimedX509.Starts (store : κ) (leaf : C) (extra : List C) : Prop :=
  V.base.ctxInit store leaf (V.base.storeGetUntrusted store ++ extra) = true

/-- The error of the first check that fails at a time, as it is reported. -/
def firstFailure (t : ℤ) (checks : List Check) : Option X509Error :=
  (checks.findSome? (Check.failure t)).map verifyError

/-- The string is a timestamp for the second, counted from 1970. -/
def IsTime (s : List Byte) (t : ℤ) : Prop := ∃ c : Timestamp, s = c.iso ∧ t = c.toSeconds - epoch

/-- The verdict is the one at the time of the options, or that of the clock if they have none, and
the call fails if their time is no timestamp. -/
structure AtHonoured (now : ℤ) (store : κ) (leaf : C) (extra : List C) (opts : VerifyOptions) :
    Prop where
  none : opts.atTime = none →
    verifyChainAt V now store leaf extra opts = verdictAt V now store leaf extra opts
  some : ∀ s ∈ opts.atTime, ∀ t, IsTime s t →
    verifyChainAt V now store leaf extra opts = verdictAt V t store leaf extra opts
  invalid : ∀ s ∈ opts.atTime, (∀ t, ¬IsTime s t) →
    ∃ e, verifyChainAt V now store leaf extra opts = .error e

end

section

variable {κ C : Type} {V : TimedX509 κ C} {now t : ℤ} {store : κ} {leaf : C} {extra : List C}
  {opts : VerifyOptions}

/-! ## Verdicts -/

/-- A verdict is the first failure of the checks. -/
theorem verdictAt_eq (hstart : V.Starts store leaf extra) :
    verdictAt V t store leaf extra opts =
      match firstFailure t (V.checksOf store leaf extra opts) with
      | some e => .error e
      | none => .ok (V.chainOf store leaf extra opts) := by
  refine (if_pos hstart).trans ?_
  show Except.mapError verifyError
    (match (V.checksOf store leaf extra opts).findSome? (Check.failure t) with
      | some e => .error e
      | none => .ok (V.chainOf store leaf extra opts)) = _
  rw [firstFailure]
  cases (V.checksOf store leaf extra opts).findSome? (Check.failure t) <;> rfl

/-- If the verification cannot be initialised, that is the error at any time. -/
theorem verdictAt_of_not_starts (hstart : ¬V.Starts store leaf extra) :
    verdictAt V t store leaf extra opts = .error (.internal V.base.peekLastError) :=
  if_neg hstart

theorem verdictAt_eq_iff {t' : ℤ} (hstart : V.Starts store leaf extra) :
    verdictAt V t store leaf extra opts = verdictAt V t' store leaf extra opts ↔
      firstFailure t (V.checksOf store leaf extra opts) =
        firstFailure t' (V.checksOf store leaf extra opts) := by
  rw [verdictAt_eq hstart, verdictAt_eq hstart]
  cases firstFailure t (V.checksOf store leaf extra opts) <;>
    cases firstFailure t' (V.checksOf store leaf extra opts) <;> simp

/-- A chain is good only at times in the periods of all its certificates. -/
theorem verdictAt_eq_ok {chain : List C}
    (h : verdictAt V t store leaf extra opts = .ok chain) :
    ∀ c ∈ chain, V.notBefore c ≤ t ∧ t < V.notAfter c := by
  by_cases hstart : V.Starts store leaf extra
  · rw [verdictAt_eq hstart] at h
    cases hfail : firstFailure t (V.checksOf store leaf extra opts) with
    | some e =>
      rw [hfail] at h
      cases h
    | none =>
      rw [hfail] at h
      obtain rfl := Except.ok.inj h
      intro c hc
      have hnone := List.findSome?_eq_none_iff.mp (Option.map_eq_none_iff.mp hfail) _
        (V.period_mem hc)
      -- neither bound of the period is passed
      dsimp only [Check.failure] at hnone
      split_ifs at hnone with hlt hle
      exact ⟨Int.not_lt.mp hlt, Int.not_le.mp hle⟩
  · rw [verdictAt_of_not_starts hstart] at h
    cases h

/-- Outside of one of the periods, and if no other check fails, the error says so. -/
theorem verdictAt_eq_error (hstart : V.Starts store leaf extra) {c : C}
    (hc : c ∈ V.chainOf store leaf extra opts) (ht : t < V.notBefore c ∨ V.notAfter c ≤ t)
    (hother : ∀ k ∈ V.checksOf store leaf extra opts, ∀ e, k.failure t = some e →
      e = .certNotYetValid ∨ e = .certHasExpired) :
    verdictAt V t store leaf extra opts = .error .notYetValid ∨
      verdictAt V t store leaf extra opts = .error .expired := by
  rw [verdictAt_eq hstart, firstFailure]
  cases hfail : (V.checksOf store leaf extra opts).findSome? (Check.failure t) with
  | none =>
    -- the check of this period would have failed
    have hnone := List.findSome?_eq_none_iff.mp hfail _ (V.period_mem hc)
    dsimp only [Check.failure] at hnone
    split_ifs at hnone with hlt hle
    exact absurd ht (not_or.mpr ⟨hlt, hle⟩)
  | some e =>
    obtain ⟨k, hk, hke⟩ := List.exists_of_findSome?_eq_some hfail
    rcases hother k hk e hke with rfl | rfl
    · exact Or.inl rfl
    · exact Or.inr rfl

/-! ## The time of the options -/

/-- A string is a timestamp for one second only. -/
theorem IsTime.unique {s : List Byte} {t' : ℤ} (h : IsTime s t) (h' : IsTime s t') : t = t' := by
  obtain ⟨c, rfl, rfl⟩ := h
  obtain ⟨c', hc, rfl⟩ := h'
  have hseconds : ∀ d : Timestamp, timegm (isoTm d.year (d.month + 1) d.day d.hour d.minute
      d.second) = d.toSeconds - epoch := Timestamp.timegm_fields
  -- the string tells the fields
  have hfields : c.fields = c'.fields := by
    rw [← c.scan_iso, ← c'.scan_iso, hc]
  simp only [Timestamp.fields, List.cons.injEq, and_true] at hfields
  obtain ⟨hy, hmo, hd, hh, hmi, hse⟩ := hfields
  rw [← hseconds c, ← hseconds c', hy, hmo, hd, hh, hmi, hse]

/-- The checks of the call come out at the time of the clock as they should at the time that the
options ask for: the first to fail reports the same error at both, or none fails at either; and one
fails if the time of the options is no timestamp. -/
def ClockAgrees (V : TimedX509 κ C) (now : ℤ) (store : κ) (leaf : C) (extra : List C)
    (opts : VerifyOptions) : Prop :=
  ∀ s ∈ opts.atTime,
    (∀ t, IsTime s t → firstFailure now (V.checksOf store leaf extra opts) =
      firstFailure t (V.checksOf store leaf extra opts)) ∧
    ((∀ t, ¬IsTime s t) → firstFailure now (V.checksOf store leaf extra opts) ≠ none)

/-- The time of the options is honoured exactly if the verification cannot even be initialised, or
the clock happens to agree with it. -/
theorem atHonoured_iff_clockAgrees :
    AtHonoured V now store leaf extra opts ↔
      ¬V.Starts store leaf extra ∨ ClockAgrees V now store leaf extra opts := by
  by_cases hstart : V.Starts store leaf extra
  · simp only [hstart, not_true_eq_false, false_or]
    constructor
    · intro h s hs
      -- the call uses the time of the clock, whatever the options say
      refine ⟨fun t ht => (verdictAt_eq_iff hstart).mp (h.some s hs t ht), fun hinvalid hnone => ?_⟩
      obtain ⟨e, he⟩ := h.invalid s hs hinvalid
      rw [verifyChainAt, ← verdictAt, verdictAt_eq hstart] at he
      simp only [effectiveTime, Option.getD_none, hnone] at he
      cases he
    · intro h
      refine ⟨fun _ => rfl, fun s hs t ht => (verdictAt_eq_iff hstart).mpr ((h s hs).1 t ht),
        fun s hs hinvalid => ?_⟩
      obtain ⟨e, he⟩ := Option.ne_none_iff_exists'.mp ((h s hs).2 hinvalid)
      refine ⟨e, ?_⟩
      rw [verifyChainAt, ← verdictAt, verdictAt_eq hstart]
      simp only [effectiveTime, Option.getD_none, he]
  · -- the call ends before a time is looked at
    refine iff_of_true ⟨fun _ => rfl, fun s _ t _ => ?_, fun s _ _ => ?_⟩ (Or.inl hstart)
    · rw [verifyChainAt, ← verdictAt, verdictAt_of_not_starts hstart,
        verdictAt_of_not_starts hstart]
    · exact ⟨_, verdictAt_of_not_starts hstart⟩

end

/-- A certificate that is valid for an hour from a time on, and nothing else to check. -/
def validForAnHour (start : ℤ) : TimedX509 Unit Unit where
  base := referenceX509 loopbackIdentity true
  chain _ leaf _ _ := [leaf]
  checks _ _ _ _ := [.period start (start + 3600) .certNotYetValid .certHasExpired]
  notBefore _ := start
  notAfter _ := start + 3600
  period_mem _ := List.mem_singleton_self _

theorem firstFailure_validForAnHour (start t : ℤ) (opts : VerifyOptions) :
    firstFailure t ((validForAnHour start).checksOf () () [] opts) =
      if t < start then some .notYetValid
      else if start + 3600 ≤ t then some .expired else none := by
  show ([Check.period start (start + 3600) .certNotYetValid .certHasExpired].findSome?
    (Check.failure t)).map verifyError = _
  simp only [List.findSome?_cons, List.findSome?_nil, Check.failure]
  split_ifs <;> rfl

end OpenSSLWasm.X509
