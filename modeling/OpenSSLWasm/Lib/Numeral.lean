import Mathlib.Data.List.Induction
import Mathlib.Data.List.TakeWhile
import Mathlib.Data.Nat.Digits.Defs
import Mathlib.Tactic.Ring

/-!
# Signed numerals

Positional numerals in any base over any characters, with an optional minus sign, and two ways to
read them: as a whole, and by the longest prefix that is one.

## Main definitions

* `Numerals`: a base, its digits and a minus sign;
* `Numerals.Denotes`: the whole string is a numeral for an integer;
* `Numerals.AtFront`: there is a numeral at the front of the string;
* `Numerals.parsePrefix`: the longest numeral at the front of a string, and its length;
* `Numerals.write`: the digits of numbers, each on a given number of characters.

## Main results

* `Numerals.parsePrefix_of_denotes` and `Numerals.denotes_take`: on numerals both readings agree,
  and what is read from the front of any other string is the numeral there;
* `Numerals.readFront_whole_iff`: for which strings the two ways to read come to the same;
* `Numerals.denotes_write`: what is written is a numeral for the number it stands for.
-/

/-- The digits of a base. -/
structure Numerals (α : Type*) where
  base : ℕ
  digit : α → Option ℕ
  minus : α
  digit_minus : digit minus = none

namespace Numerals

variable {α : Type*} (N : Numerals α)

/-- The character is a digit. -/
def isDigit (c : α) : Bool := (N.digit c).isSome

theorem isDigit_minus : N.isDigit N.minus = false := by
  rw [isDigit, N.digit_minus]
  rfl

/-- The number that a string of digits stands for, the most significant first. -/
def value (s : List α) : ℕ := s.foldl (fun n c => n * N.base + (N.digit c).getD 0) 0

/-- A string of at least one digit. -/
structure IsUnsigned (s : List α) : Prop where
  ne_nil : s ≠ []
  digits : ∀ c ∈ s, N.isDigit c = true

/-- The whole string is a numeral for the integer: digits, or a minus sign and digits. -/
def Denotes (s : List α) (z : ℤ) : Prop :=
  (N.IsUnsigned s ∧ z = N.value s) ∨ ∃ t, s = N.minus :: t ∧ N.IsUnsigned t ∧ z = -(N.value t : ℤ)

/-- There is a numeral at the front of the string. -/
def AtFront (s : List α) : Prop := ∃ n z, N.Denotes (s.take n) z

/-! ## Values -/

@[simp] theorem value_nil : N.value [] = 0 := rfl

/-- Reading on from a number that was read before. -/
theorem foldl_value (n : ℕ) (s : List α) :
    s.foldl (fun n c => n * N.base + (N.digit c).getD 0) n =
      n * N.base ^ s.length + N.value s := by
  induction s generalizing n with
  | nil => simp
  | cons c s ih =>
    have hcons : N.value (c :: s) = (0 * N.base + (N.digit c).getD 0) * N.base ^ s.length +
        N.value s := ih _
    rw [List.foldl_cons, ih, hcons, List.length_cons]
    ring

theorem value_append (s t : List α) :
    N.value (s ++ t) = N.value s * N.base ^ t.length + N.value t := by
  rw [value, List.foldl_append, foldl_value]
  rfl

/-! ## Numerals -/

variable {N} {s : List α} {y z : ℤ}

/-- A string of digits does not start with a minus sign. -/
theorem IsUnsigned.head?_ne (hs : N.IsUnsigned s) : s.head? ≠ some N.minus := by
  intro h
  have hd := hs.digits N.minus (List.mem_of_mem_head? h)
  rw [isDigit_minus] at hd
  cases hd

/-- A string is a numeral for at most one integer. -/
theorem Denotes.unique (hy : N.Denotes s y) (hz : N.Denotes s z) : y = z := by
  -- the first character tells whether there is a sign
  rcases hy with ⟨hs, rfl⟩ | ⟨t, rfl, ht, rfl⟩
  · rcases hz with ⟨-, rfl⟩ | ⟨t, rfl, -, -⟩
    · rfl
    · exact absurd rfl hs.head?_ne
  · rcases hz with ⟨hs, -⟩ | ⟨t', ht', -, rfl⟩
    · exact absurd rfl hs.head?_ne
    · rw [(List.cons.inj ht').2]

theorem Denotes.ne_nil (hz : N.Denotes s z) : s ≠ [] := by
  rcases hz with ⟨hs, -⟩ | ⟨t, rfl, -⟩
  · exact hs.ne_nil
  · exact List.cons_ne_nil _ _

/-- Numerals have no other characters than digits and the minus sign. -/
theorem Denotes.mem (hz : N.Denotes s z) {c : α} (hc : c ∈ s) :
    c = N.minus ∨ N.isDigit c = true := by
  rcases hz with ⟨hs, -⟩ | ⟨t, rfl, ht, -⟩
  · exact Or.inr (hs.digits c hc)
  · rcases List.mem_cons.mp hc with rfl | hc
    · exact Or.inl rfl
    · exact Or.inr (ht.digits c hc)

/-- A numeral is at its own front. -/
theorem Denotes.atFront (hz : N.Denotes s z) : N.AtFront s :=
  ⟨s.length, z, by rwa [List.take_length]⟩

/-! ## Reading the front of a string -/

section

variable [DecidableEq α] (N)

/-- The longest numeral at the front of a string: how many characters it has, 0 if there is none,
and the integer. -/
def parsePrefix (s : List α) : ℕ × ℤ :=
  let neg := s.head? = some N.minus
  let digits := (if neg then s.tail else s).takeWhile N.isDigit
  if digits = [] then (0, 0)
  else if neg then (digits.length + 1, -(N.value digits : ℤ))
  else (digits.length, N.value digits)

variable {N}

/-- A numeral is read as a whole. -/
theorem parsePrefix_of_denotes (hz : N.Denotes s z) : N.parsePrefix s = (s.length, z) := by
  rcases hz with ⟨hs, rfl⟩ | ⟨t, rfl, ht, rfl⟩
  · have hdigits : s.takeWhile N.isDigit = s := List.takeWhile_eq_self_iff.mpr hs.digits
    simp only [parsePrefix, hs.head?_ne, if_false, hdigits, hs.ne_nil]
  · have hdigits : t.takeWhile N.isDigit = t := List.takeWhile_eq_self_iff.mpr ht.digits
    simp only [parsePrefix, List.head?_cons, if_true, List.tail_cons, hdigits, ht.ne_nil, if_false,
      List.length_cons]

/-- What is read from the front of a string is a numeral there. -/
theorem denotes_take (h : (N.parsePrefix s).1 ≠ 0) :
    N.Denotes (s.take (N.parsePrefix s).1) (N.parsePrefix s).2 := by
  -- the digits that are read are those that can be
  have hunsigned : ∀ {t : List α}, t.takeWhile N.isDigit ≠ [] →
      N.IsUnsigned (t.takeWhile N.isDigit) :=
    fun ht => ⟨ht, fun c hc => List.mem_takeWhile_imp hc⟩
  have htake : ∀ t : List α, t.take (t.takeWhile N.isDigit).length = t.takeWhile N.isDigit :=
    fun t => List.prefix_iff_eq_take.mp (List.takeWhile_prefix _) |>.symm
  by_cases hneg : s.head? = some N.minus
  · -- a minus sign alone is no numeral, and is not read either
    obtain ⟨t, rfl⟩ := List.head?_eq_some_iff.mp hneg
    by_cases hnil : t.takeWhile N.isDigit = []
    · simp [parsePrefix, hnil] at h
    · have hparse : N.parsePrefix (N.minus :: t) =
          ((t.takeWhile N.isDigit).length + 1, -(N.value (t.takeWhile N.isDigit) : ℤ)) := by
        simp [parsePrefix, hnil]
      rw [hparse, List.take_succ_cons, htake]
      exact Or.inr ⟨_, rfl, hunsigned hnil, rfl⟩
  · by_cases hnil : s.takeWhile N.isDigit = []
    · simp [parsePrefix, hneg, hnil] at h
    · have hparse : N.parsePrefix s =
          ((s.takeWhile N.isDigit).length, (N.value (s.takeWhile N.isDigit) : ℤ)) := by
        simp only [parsePrefix, hneg, if_false, hnil]
      rw [hparse, htake]
      exact Or.inl ⟨hunsigned hnil, rfl⟩

omit [DecidableEq α] in
theorem takeWhile_isDigit_eq_nil_iff {s : List α} :
    s.takeWhile N.isDigit = [] ↔ ∀ n, ¬N.IsUnsigned (s.take n) := by
  rcases s with _ | ⟨c, s⟩
  · have hnil : ¬N.IsUnsigned [] := fun h => h.ne_nil rfl
    simp [hnil]
  · cases hc : N.isDigit c with
    | true =>
      -- the first digit alone is a numeral
      have hone : N.IsUnsigned ((c :: s).take 1) := by
        refine ⟨List.cons_ne_nil _ _, fun d hd => ?_⟩
        rwa [List.mem_singleton.mp hd]
      simp only [List.takeWhile_cons, hc, if_true, reduceCtorEq, false_iff]
      exact fun h => h 1 hone
    | false =>
      simp only [List.takeWhile_cons, hc, Bool.false_eq_true, if_false, true_iff]
      intro n h
      rcases n with _ | n
      · exact h.ne_nil rfl
      · rw [h.digits c (List.mem_cons_self ..)] at hc
        cases hc

/-- Nothing is read exactly if there is no numeral at the front. -/
theorem parsePrefix_fst_eq_zero_iff : (N.parsePrefix s).1 = 0 ↔ ¬N.AtFront s := by
  refine ⟨?_, fun h => ?_⟩
  · rintro h ⟨n, z, hz⟩
    -- the digits of the numeral are digits that are read
    rcases hz with ⟨hs, -⟩ | ⟨t, hst, ht, -⟩
    · have hhead : s.head? ≠ some N.minus := by
        intro hhead
        obtain ⟨s, rfl⟩ := List.head?_eq_some_iff.mp hhead
        rcases n with _ | n
        · exact hs.ne_nil rfl
        · exact hs.head?_ne rfl
      have hdigits : s.takeWhile N.isDigit ≠ [] :=
        fun hnil => takeWhile_isDigit_eq_nil_iff.mp hnil n hs
      simp [parsePrefix, hhead, hdigits] at h
    · rcases n with _ | n
      · cases hst
      · rcases s with _ | ⟨c, s⟩
        · cases hst
        · obtain ⟨rfl, rfl⟩ := List.cons.inj hst
          have hdigits : s.takeWhile N.isDigit ≠ [] :=
            fun hnil => takeWhile_isDigit_eq_nil_iff.mp hnil n ht
          simp [parsePrefix, hdigits] at h
  · by_contra h0
    exact h ⟨_, _, denotes_take h0⟩

variable (N) in
/-- The integer at the front of a string, if there is one. -/
def readFront (s : List α) : Option ℤ :=
  if (N.parsePrefix s).1 = 0 then none else some (N.parsePrefix s).2

theorem readFront_of_denotes (hz : N.Denotes s z) : N.readFront s = some z := by
  rw [readFront, parsePrefix_of_denotes hz, if_neg]
  exact fun h => hz.ne_nil (List.length_eq_zero_iff.mp h)

theorem readFront_eq_none_iff : N.readFront s = none ↔ ¬N.AtFront s := by
  rw [readFront, ← parsePrefix_fst_eq_zero_iff]
  by_cases h : (N.parsePrefix s).1 = 0 <;> simp [h]

theorem denotes_take_of_readFront (h : N.readFront s = some z) :
    N.Denotes (s.take (N.parsePrefix s).1) z := by
  rw [readFront] at h
  split_ifs at h with hzero
  obtain rfl := Option.some.inj h
  exact denotes_take hzero

/-- The integer at the front is that of the whole string for the strings that are numerals, and
those without a numeral at the front. -/
theorem readFront_whole_iff :
    (∀ z, N.readFront s = some z ↔ N.Denotes s z) ↔ (∃ z, N.Denotes s z) ∨ ¬N.AtFront s := by
  constructor
  · intro h
    cases hs : N.readFront s with
    | none => exact Or.inr (readFront_eq_none_iff.mp hs)
    | some z => exact Or.inl ⟨z, (h z).mp hs⟩
  · rintro (⟨y, hy⟩ | hfront) z
    · rw [readFront_of_denotes hy]
      constructor
      · rintro h
        rwa [← Option.some.inj h]
      · exact fun hz => congrArg some (hy.unique hz)
    · rw [readFront_eq_none_iff.mpr hfront]
      constructor
      · intro h
        cases h
      · exact fun hz => absurd hz.atFront hfront

end

/-! ## Writing digits -/

/-- Write numbers one after the other, each as the string that `f` gives for it. -/
def write (f : ℕ → List α) (ds : List ℕ) : List α := ds.flatMap f

/-- Numbers written on `k` digits each are read as the digits of a base that is a power. -/
theorem value_write {f : ℕ → List α} {k : ℕ} {ds : List ℕ} (hlen : ∀ d ∈ ds, (f d).length = k)
    (hval : ∀ d ∈ ds, N.value (f d) = d) :
    N.value (write f ds) = Nat.ofDigits (N.base ^ k) ds.reverse := by
  -- the last number written is the least significant digit
  induction ds using List.reverseRecOn with
  | nil => rfl
  | append_singleton ds d ih =>
    have hd : d ∈ ds ++ [d] := List.mem_append_right _ (List.mem_singleton_self d)
    rw [write, List.flatMap_append, List.flatMap_singleton, value_append, hlen d hd, hval d hd,
      List.reverse_append, List.reverse_singleton, List.singleton_append, Nat.ofDigits_cons, ← write,
      ih (fun e he => hlen e (List.mem_append_left _ he))
        fun e he => hval e (List.mem_append_left _ he)]
    ring

/-- Written digits are digits. -/
theorem isUnsigned_write {f : ℕ → List α} {ds : List ℕ} (hds : ds ≠ [])
    (hf : ∀ d ∈ ds, N.IsUnsigned (f d)) : N.IsUnsigned (write f ds) where
  ne_nil := by
    obtain ⟨d, hd⟩ := List.exists_mem_of_ne_nil ds hds
    intro hnil
    exact (hf d hd).ne_nil (List.flatMap_eq_nil_iff.mp hnil d hd)
  digits c hc := by
    obtain ⟨d, hd, hc⟩ := List.mem_flatMap.mp hc
    exact (hf d hd).digits c hc

/-- An integer other than 0, written in a base that is a power, with a minus sign if it is negative,
is a numeral for it. -/
theorem denotes_write {f : ℕ → List α} {k : ℕ} (hbase : 1 < N.base ^ k)
    (hlen : ∀ d < N.base ^ k, (f d).length = k) (hval : ∀ d < N.base ^ k, N.value (f d) = d)
    (hf : ∀ d < N.base ^ k, N.IsUnsigned (f d)) (hz : z ≠ 0) :
    N.Denotes ((if z < 0 then [N.minus] else []) ++
      write f (Nat.digits (N.base ^ k) z.natAbs).reverse) z := by
  have hdigits : ∀ d ∈ (Nat.digits (N.base ^ k) z.natAbs).reverse, d < N.base ^ k :=
    fun d hd => Nat.digits_lt_base hbase (List.mem_reverse.mp hd)
  have hvalue : N.value (write f (Nat.digits (N.base ^ k) z.natAbs).reverse) = z.natAbs := by
    have hwrite := value_write (fun d hd => hlen d (hdigits d hd))
      fun d hd => hval d (hdigits d hd)
    rw [hwrite, List.reverse_reverse]
    exact Nat.ofDigits_digits _ z.natAbs
  -- a number other than 0 has a digit
  have hunsigned : N.IsUnsigned (write f (Nat.digits (N.base ^ k) z.natAbs).reverse) := by
    refine isUnsigned_write ?_ fun d hd => hf d (hdigits d hd)
    rw [ne_eq, List.reverse_eq_nil_iff, Nat.digits_eq_nil_iff_eq_zero]
    omega
  by_cases hneg : z < 0
  · rw [if_pos hneg, List.singleton_append]
    refine Or.inr ⟨_, rfl, hunsigned, ?_⟩
    rw [hvalue]
    omega
  · rw [if_neg hneg, List.nil_append]
    refine Or.inl ⟨hunsigned, ?_⟩
    rw [hvalue]
    omega

end Numerals
