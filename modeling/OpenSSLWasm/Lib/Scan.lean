import OpenSSLWasm.Lib.Numeral

/-!
# Scanning integers

Formatted input in the manner of C: a format of integer conversions and literal characters is
matched against the front of a string. An integer may follow blanks, and have a sign.

## Main definitions

* `Scanner`: the characters that matter, and what is stored for a sign and digits;
* `Scanner.scanInt` and `Scanner.scan`: one conversion, and a format, up to where it fails;
* `Scanner.Reads` and `Scanner.Scans`: the texts that a conversion and a format match.

## Main results

* `Scanner.scanInt_eq_some_iff`: a conversion succeeds on the texts that it matches;
* `Scanner.scan_append_lit`: a literal character at the end of a format converts nothing;
* `Scanner.scan_iff`: all conversions succeed exactly if the text matches up to the last one.
-/

/-- The characters of a scanner, and what it stores for a minus sign or none and digits. -/
structure Scanner (α : Type*) extends Numerals α where
  plus : α
  isSpace : α → Bool
  store : Bool → ℕ → ℤ
  plus_ne_minus : plus ≠ minus
  digit_plus : digit plus = none
  isSpace_plus : isSpace plus = false
  isSpace_minus : isSpace minus = false
  digit_of_isSpace : ∀ c, isSpace c = true → digit c = none

/-- A part of a format. -/
inductive Scanner.Directive (α : Type*)
  | int
  | lit (c : α)
  deriving DecidableEq

namespace Scanner

variable {α : Type*} (S : Scanner α)

/-! ## Texts -/

/-- The text does not go on with a digit. -/
def DigitsEnd (s : List α) : Prop := ∀ c ∈ s.head?, S.isDigit c = false

/-- An integer at the front: blanks, at most one sign, and digits, as many as there are. -/
def Reads (s : List α) (z : ℤ) (rest : List α) : Prop :=
  ∃ blanks sign digits neg, s = blanks ++ (sign ++ (digits ++ rest)) ∧
    (∀ c ∈ blanks, S.isSpace c = true) ∧ S.IsUnsigned digits ∧ S.DigitsEnd rest ∧
    ((neg = false ∧ (sign = [] ∨ sign = [S.plus])) ∨ (neg = true ∧ sign = [S.minus])) ∧
    z = S.store neg (S.value digits)

/-- A text that matches a format at the front, and the integers in it. -/
inductive Scans : List (Directive α) → List α → List ℤ → Prop
  | nil (s : List α) : Scans [] s []
  | int {s rest : List α} {z : ℤ} {fmt : List (Directive α)} {zs : List ℤ}
      (h : S.Reads s z rest) (hs : Scans fmt rest zs) : Scans (.int :: fmt) s (z :: zs)
  | lit {c : α} {rest : List α} {fmt : List (Directive α)} {zs : List ℤ}
      (hs : Scans fmt rest zs) : Scans (.lit c :: fmt) (c :: rest) zs

/-! ## Scanning -/

/-- The digits of an integer, and the rest of the text. -/
def scanDigits (neg : Bool) (s : List α) : Option (ℤ × List α) :=
  let digits := s.takeWhile S.isDigit
  if digits.isEmpty then none else some (S.store neg (S.value digits), s.dropWhile S.isDigit)

/-- The conversions of a format. -/
def ints : List (Directive α) → ℕ
  | [] => 0
  | .int :: fmt => ints fmt + 1
  | .lit _ :: fmt => ints fmt

section

variable [DecidableEq α]

/-- An integer conversion. -/
def scanInt (s : List α) : Option (ℤ × List α) :=
  match s.dropWhile S.isSpace with
  | [] => none
  | c :: t =>
    if c = S.minus then S.scanDigits true t
    else if c = S.plus then S.scanDigits false t
    else S.scanDigits false (c :: t)

/-- A format: the integers that are stored before it ends or does not match. -/
def scan : List (Directive α) → List α → List ℤ
  | [], _ => []
  | .int :: fmt, s =>
    match S.scanInt s with
    | none => []
    | some (z, rest) => z :: scan fmt rest
  | .lit _ :: _, [] => []
  | .lit c :: fmt, b :: rest => if b = c then scan fmt rest else []

end

/-! ## One conversion -/

section

variable {S} {s rest : List α} {z : ℤ} {neg : Bool}

theorem scanDigits_eq_some_iff :
    S.scanDigits neg s = some (z, rest) ↔
      ∃ digits, s = digits ++ rest ∧ S.IsUnsigned digits ∧ S.DigitsEnd rest ∧
        z = S.store neg (S.value digits) := by
  constructor
  · intro h
    simp only [scanDigits] at h
    split_ifs at h with hnil
    obtain ⟨rfl, rfl⟩ := Prod.mk.inj (Option.some.inj h)
    refine ⟨s.takeWhile S.isDigit, List.takeWhile_append_dropWhile.symm, ⟨?_, ?_⟩, ?_, rfl⟩
    · rwa [List.isEmpty_iff] at hnil
    · exact fun c hc => List.mem_takeWhile_imp hc
    · -- all digits are taken, so that none is left
      intro c hc
      have hhead := List.head?_dropWhile_not S.isDigit s
      rw [Option.mem_def.mp hc] at hhead
      exact hhead
  · rintro ⟨digits, rfl, hdigits, hrest, rfl⟩
    have hnone : rest.takeWhile S.isDigit = [] ∧ rest.dropWhile S.isDigit = rest := by
      rcases rest with _ | ⟨c, rest⟩
      · exact ⟨rfl, rfl⟩
      · have hc : S.isDigit c = false := hrest c rfl
        simp [hc]
    have htake : (digits ++ rest).takeWhile S.isDigit = digits := by
      rw [List.takeWhile_append_of_pos hdigits.digits, hnone.1, List.append_nil]
    have hdrop : (digits ++ rest).dropWhile S.isDigit = rest := by
      rw [List.dropWhile_append_of_pos hdigits.digits, hnone.2]
    simp only [scanDigits, htake, hdrop]
    rw [if_neg]
    rw [List.isEmpty_iff]
    exact hdigits.ne_nil

/-- A digit is neither a blank nor a sign. -/
theorem ne_of_isDigit {d : α} (hd : S.isDigit d = true) :
    S.isSpace d = false ∧ d ≠ S.minus ∧ d ≠ S.plus := by
  refine ⟨?_, ?_, ?_⟩
  · rw [← Bool.not_eq_true]
    intro hspace
    rw [Numerals.isDigit, S.digit_of_isSpace d hspace] at hd
    cases hd
  · rintro rfl
    rw [Numerals.isDigit_minus] at hd
    cases hd
  · rintro rfl
    rw [Numerals.isDigit, S.digit_plus] at hd
    cases hd

variable [DecidableEq α]

/-- Blanks are skipped. -/
theorem scanInt_blanks {blanks t : List α} (h : ∀ c ∈ blanks, S.isSpace c = true) :
    S.scanInt (blanks ++ t) = S.scanInt t := by
  rw [scanInt, scanInt, List.dropWhile_append_of_pos h]

/-- A character that is no blank is a sign, or the first digit. -/
theorem scanInt_cons {c : α} (hspace : S.isSpace c = false) (t : List α) :
    S.scanInt (c :: t) =
      if c = S.minus then S.scanDigits true t
      else if c = S.plus then S.scanDigits false t
      else S.scanDigits false (c :: t) := by
  rw [scanInt, List.dropWhile_cons_of_neg (by simp [hspace])]

/-- The conversion of a text that it matches. -/
theorem Reads.scanInt_eq (h : S.Reads s z rest) : S.scanInt s = some (z, rest) := by
  obtain ⟨blanks, sign, digits, neg, rfl, hblanks, hdigits, hrest, hsign, rfl⟩ := h
  have hread : S.scanDigits neg (digits ++ rest) =
      some (S.store neg (S.value digits), rest) :=
    scanDigits_eq_some_iff.mpr ⟨digits, rfl, hdigits, hrest, rfl⟩
  rw [scanInt_blanks hblanks]
  rcases hsign with ⟨rfl, rfl | rfl⟩ | ⟨rfl, rfl⟩
  · -- without a sign, the first digit follows the blanks
    rcases digits with _ | ⟨d, digits⟩
    · exact absurd rfl hdigits.ne_nil
    · obtain ⟨hspace, hminus, hplus⟩ := ne_of_isDigit (hdigits.digits d (List.mem_cons_self ..))
      rw [List.nil_append, List.cons_append, scanInt_cons hspace, if_neg hminus, if_neg hplus]
      exact hread
  · rw [List.singleton_append, scanInt_cons S.isSpace_plus, if_neg S.plus_ne_minus, if_pos rfl]
    exact hread
  · rw [List.singleton_append, scanInt_cons S.isSpace_minus, if_pos rfl]
    exact hread

/-- The text of a conversion that succeeds. -/
theorem reads_of_scanInt (h : S.scanInt s = some (z, rest)) : S.Reads s z rest := by
  have hs : s = s.takeWhile S.isSpace ++ s.dropWhile S.isSpace :=
    List.takeWhile_append_dropWhile.symm
  have hblanks : ∀ c ∈ s.takeWhile S.isSpace, S.isSpace c = true :=
    fun c hc => List.mem_takeWhile_imp hc
  rw [scanInt] at h
  rcases ht : s.dropWhile S.isSpace with _ | ⟨c, t⟩
  · rw [ht] at h
    cases h
  · rw [ht] at h hs
    dsimp only at h
    -- by the first character that is left: a minus sign, a plus sign, or a digit
    split_ifs at h with hminus hplus
    · obtain ⟨digits, rfl, hdigits, hrest, hz⟩ := scanDigits_eq_some_iff.mp h
      exact ⟨_, [c], digits, true, hs, hblanks, hdigits, hrest,
        Or.inr ⟨rfl, by rw [hminus]⟩, hz⟩
    · obtain ⟨digits, rfl, hdigits, hrest, hz⟩ := scanDigits_eq_some_iff.mp h
      exact ⟨_, [c], digits, false, hs, hblanks, hdigits, hrest,
        Or.inl ⟨rfl, Or.inr (by rw [hplus])⟩, hz⟩
    · obtain ⟨digits, hct, hdigits, hrest, hz⟩ := scanDigits_eq_some_iff.mp h
      rw [hct] at hs
      exact ⟨_, [], digits, false, hs, hblanks, hdigits, hrest, Or.inl ⟨rfl, Or.inl rfl⟩, hz⟩

/-- A conversion succeeds on the texts that it matches. -/
theorem scanInt_eq_some_iff : S.scanInt s = some (z, rest) ↔ S.Reads s z rest :=
  ⟨reads_of_scanInt, Reads.scanInt_eq⟩

end

/-! ## Formats -/

section

variable {S} [DecidableEq α] {s : List α} {fmt : List (Directive α)} {zs : List ℤ}

/-- A literal character at the end converts nothing, whether it matches or not. -/
theorem scan_append_lit (fmt : List (Directive α)) (c : α) (s : List α) :
    S.scan (fmt ++ [.lit c]) s = S.scan fmt s := by
  induction fmt generalizing s with
  | nil => rcases s with _ | ⟨b, rest⟩ <;> simp [scan]
  | cons d fmt ih =>
    cases d with
    | int =>
      -- a conversion that fails ends both scans
      simp only [List.cons_append, scan]
      cases S.scanInt s with
      | none => rfl
      | some r => simp only [ih]
    | lit l => rcases s with _ | ⟨b, rest⟩ <;> simp [scan, ih]

omit [DecidableEq α] in
theorem ints_pos (h : fmt.getLast? = some .int) : 0 < ints fmt := by
  induction fmt with
  | nil => cases h
  | cons d fmt ih =>
    cases d with
    | int => exact Nat.succ_pos _
    | lit c =>
      rcases fmt with _ | ⟨e, fmt⟩
      · cases h
      · exact ih (by rwa [List.getLast?_cons_cons] at h)

/-- A text that matches has all its integers stored. -/
theorem Scans.scan_eq (h : S.Scans fmt s zs) : S.scan fmt s = zs ∧ zs.length = ints fmt := by
  induction h with
  | nil s => exact ⟨by rw [scan], rfl⟩
  | int hread _ ih =>
    rw [scan, scanInt_eq_some_iff.mpr hread]
    exact ⟨congrArg (_ :: ·) ih.1, by rw [List.length_cons, ih.2, ints]⟩
  | lit _ ih =>
    rw [scan, if_pos rfl, ints]
    exact ih

/-- If the format ends with a conversion, all of them succeed exactly if the text matches. -/
theorem scan_iff (hfmt : fmt.getLast? = some .int) :
    S.scan fmt s = zs ∧ zs.length = ints fmt ↔ S.Scans fmt s zs := by
  refine ⟨?_, Scans.scan_eq⟩
  rintro ⟨rfl, hlen⟩
  induction fmt generalizing s with
  | nil => cases hfmt
  | cons d fmt ih =>
    have hpos := ints_pos hfmt
    have hlast : fmt = [] ∨ fmt.getLast? = some .int := by
      rcases fmt with _ | ⟨e, fmt⟩
      · exact Or.inl rfl
      · exact Or.inr (by rwa [List.getLast?_cons_cons] at hfmt)
    cases d with
    | int =>
      rw [scan] at hlen ⊢
      cases hread : S.scanInt s with
      | none => simp [hread, ints] at hlen
      | some r =>
        obtain ⟨z, rest⟩ := r
        simp only [hread, List.length_cons, ints, Nat.add_right_cancel_iff] at hlen ⊢
        refine Scans.int (scanInt_eq_some_iff.mp hread) ?_
        rcases hlast with rfl | hlast
        · rw [scan]
          exact Scans.nil rest
        · exact ih hlast hlen
    | lit c =>
      -- no conversion is left to succeed if a literal does not match
      rcases s with _ | ⟨b, rest⟩
      · rw [scan, List.length_nil] at hlen
        omega
      · rw [scan] at hlen ⊢
        split_ifs at hlen ⊢ with hb
        · subst hb
          refine Scans.lit ?_
          rcases hlast with rfl | hlast
          · cases hfmt
          · exact ih hlast hlen
        · rw [List.length_nil] at hlen
          omega

end

end Scanner
