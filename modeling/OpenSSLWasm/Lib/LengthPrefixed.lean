import Mathlib.Data.List.Basic
import Mathlib.Data.List.TakeWhile
import Mathlib.Data.Nat.Init
import Mathlib.Tactic.Common

/-!
# Vectors of byte strings, each after a byte for its length

The entries of a vector are laid out one after the other, each with its length in front. A reader
that steps from entry to entry finds the end at an entry without a length, which in memory is a zero
byte.

## Main definitions

* `encode`: the layout;
* `Entry`: what can be an entry;
* `Encodes`: some bytes are the layout of a vector of entries;
* `walk`: the position at which a reader stops;
* `walkReads`: the positions that it looks at;
* `decode`: the entries that some bytes stand for.

## Main results

* `walk_encode`: a vector of entries that is followed by a zero is walked to its end;
* `walk_encode_eq_length_iff`: a vector with strings that are no entries is not;
* `le_of_mem_walkReads`: a reader looks at nothing past the position at which it stops;
* `decode_encode`: the entries of a vector can be told from its layout.
-/

namespace LengthPrefixed

/-- The entries one after the other. A length that is no byte is cut down to one. -/
def encode (ps : List (List (BitVec 8))) : List (BitVec 8) :=
  ps.flatMap fun p => BitVec.ofNat 8 p.length :: p

/-- What can be an entry: the length is a byte, and does not look like the end. -/
def Entry (p : List (BitVec 8)) : Prop := p ≠ [] ∧ p.length < 256

/-- Some bytes stand for a vector. -/
def Encodes (ps : List (List (BitVec 8))) (bytes : List (BitVec 8)) : Prop :=
  (∀ p ∈ ps, Entry p) ∧ bytes = encode ps

@[simp] theorem encode_nil : encode [] = [] := rfl

@[simp] theorem encode_cons (p : List (BitVec 8)) (ps : List (List (BitVec 8))) :
    encode (p :: ps) = BitVec.ofNat 8 p.length :: (p ++ encode ps) := by
  simp [encode]

/-- Step over entries until there is a zero, for at most so many rounds. -/
def walk (mem : ℕ → BitVec 8) : ℕ → ℕ → Option ℕ
  | 0, _ => none
  | fuel + 1, pos =>
    if mem pos = 0 then some pos else walk mem fuel (pos + 1 + (mem pos).toNat)

/-- The positions that are looked at on the way. -/
def walkReads (mem : ℕ → BitVec 8) : ℕ → ℕ → List ℕ
  | 0, _ => []
  | fuel + 1, pos =>
    pos :: if mem pos = 0 then [] else walkReads mem fuel (pos + 1 + (mem pos).toNat)

/-- At most so many entries, as they are found in some bytes. -/
def decode : ℕ → List (BitVec 8) → List (List (BitVec 8))
  | fuel + 1, n :: bytes => bytes.take n.toNat :: decode fuel (bytes.drop n.toNat)
  | _, _ => []

theorem length_encode (ps : List (List (BitVec 8))) :
    (encode ps).length = ps.length + ps.flatten.length := by
  induction ps with
  | nil => rfl
  | cons p ps ih =>
    simp only [encode_cons, List.length_cons, List.length_append, ih, List.flatten_cons]
    omega

theorem Entry.ofNat_ne_zero {p : List (BitVec 8)} (hp : Entry p) :
    BitVec.ofNat 8 p.length ≠ 0 := by
  intro h
  have h := congrArg BitVec.toNat h
  rw [BitVec.toNat_ofNat, Nat.mod_eq_of_lt hp.2] at h
  exact hp.1 (List.length_eq_zero_iff.mp h)

/-- The walk over `ps`, behind other bytes `pre` and before a zero. -/
theorem walk_encode_append (d : BitVec 8) {ps : List (List (BitVec 8))} (hps : ∀ p ∈ ps, Entry p)
    (pre rest : List (BitVec 8)) :
    walk (fun i => (pre ++ (encode ps ++ 0 :: rest)).getD i d) (ps.length + 1) pre.length =
      some (pre.length + (encode ps).length) := by
  induction ps generalizing pre with
  | nil => simp [walk]
  | cons p ps ih =>
    -- the bytes that were walked over are added to `pre`
    have hp : Entry p := hps p List.mem_cons_self
    -- one step takes the walk to the end of the first entry, which then counts as walked over
    have hstep : pre.length + 1 + p.length = (pre ++ (BitVec.ofNat 8 p.length :: p)).length := by
      simp only [List.length_append, List.length_cons]
      omega
    have hmem : pre ++ (encode (p :: ps) ++ 0 :: rest) =
        (pre ++ (BitVec.ofNat 8 p.length :: p)) ++ (encode ps ++ 0 :: rest) := by simp
    have hhead : (pre ++ (encode (p :: ps) ++ 0 :: rest)).getD pre.length d =
        BitVec.ofNat 8 p.length := by simp
    rw [List.length_cons, walk]
    simp only [hhead, if_neg hp.ofNat_ne_zero]
    rw [BitVec.toNat_ofNat, Nat.mod_eq_of_lt hp.2, hstep, hmem,
      ih (fun q hq => hps q (List.mem_cons_of_mem _ hq)), ← hstep, encode_cons, List.length_cons,
      List.length_append]
    congr 1
    omega

/-- A vector of entries that is followed by a zero is walked to its end. -/
theorem walk_encode (d : BitVec 8) {ps : List (List (BitVec 8))} (hps : ∀ p ∈ ps, Entry p)
    (rest : List (BitVec 8)) :
    walk (fun i => (encode ps ++ 0 :: rest).getD i d) (ps.length + 1) 0 =
      some (encode ps).length := by
  simpa using walk_encode_append d hps [] rest

/-- More rounds do not take a reader any further. -/
theorem walk_unique {mem : ℕ → BitVec 8} {fuel fuel' pos n n' : ℕ}
    (h : walk mem fuel pos = some n) (h' : walk mem fuel' pos = some n') : n = n' := by
  induction fuel generalizing fuel' pos with
  | zero => cases h
  | succ fuel ih =>
    rcases fuel' with _ | fuel'
    · cases h'
    · rw [walk] at h h'
      by_cases h0 : mem pos = 0
      · rw [if_pos h0] at h h'
        rw [← Option.some.inj h, ← Option.some.inj h']
      · rw [if_neg h0] at h h'
        exact ih h h'

/-- The first string without a length looks like the end. -/
theorem walk_encode_takeWhile (d : BitVec 8) {ps : List (List (BitVec 8))}
    (hps : ∀ p ∈ ps, p.length < 256) (rest : List (BitVec 8)) :
    ∃ fuel, walk (fun i => (encode ps ++ 0 :: rest).getD i d) fuel 0 =
      some (encode (ps.takeWhile fun p => !p.isEmpty)).length := by
  have hentry : ∀ p ∈ ps.takeWhile fun p => !p.isEmpty, Entry p := by
    intro p hp
    have hne := List.mem_takeWhile_imp (p := fun q : List (BitVec 8) => !q.isEmpty) hp
    refine ⟨?_, hps p ((List.takeWhile_sublist _).subset hp)⟩
    rintro rfl
    cases hne
  -- a zero follows the entries before it, be it a length or the end
  obtain ⟨rest', hrest⟩ : ∃ rest', encode ps ++ 0 :: rest =
      encode (ps.takeWhile fun p => !p.isEmpty) ++ 0 :: rest' := by
    clear hps hentry
    induction ps with
    | nil => exact ⟨rest, rfl⟩
    | cons p ps ih =>
      rcases p with _ | ⟨b, p⟩
      · exact ⟨encode ps ++ 0 :: rest, rfl⟩
      · obtain ⟨rest', hrest⟩ := ih
        refine ⟨rest', ?_⟩
        rw [List.takeWhile_cons_of_pos (by rfl), encode_cons, encode_cons]
        simp only [List.cons_append, List.append_assoc, hrest]
  rw [hrest]
  exact ⟨_, walk_encode d hentry rest'⟩

/-- Strings that fit a length are walked to the end exactly if none is empty. -/
theorem walk_encode_eq_length_iff (d : BitVec 8) {ps : List (List (BitVec 8))}
    (hps : ∀ p ∈ ps, p.length < 256) (rest : List (BitVec 8)) :
    (∃ fuel, walk (fun i => (encode ps ++ 0 :: rest).getD i d) fuel 0 =
      some (encode ps).length) ↔ [] ∉ ps := by
  obtain ⟨fuel, hwalk⟩ := walk_encode_takeWhile d hps rest
  constructor
  · rintro ⟨fuel', hend⟩ hmem
    have hlen := walk_unique hwalk hend
    -- what is behind the first empty string is missing
    have hsplit : encode ps = encode (ps.takeWhile fun p => !p.isEmpty) ++
        encode (ps.dropWhile fun p => !p.isEmpty) := by
      rw [encode, encode, encode, ← List.flatMap_append, List.takeWhile_append_dropWhile]
    rw [hsplit, List.length_append] at hlen
    have hdrop : ps.dropWhile (fun p => !p.isEmpty) = [] := by
      rcases hbehind : ps.dropWhile fun p => !p.isEmpty with _ | ⟨p, qs⟩
      · exact hbehind
      · rw [hbehind, encode_cons, List.length_cons] at hlen
        omega
    have := List.dropWhile_eq_nil_iff.mp hdrop [] hmem
    cases this
  · intro hmem
    have hall : ps.takeWhile (fun p => !p.isEmpty) = ps := by
      refine List.takeWhile_eq_self_iff.mpr fun p hp => ?_
      rcases p with _ | ⟨b, p⟩
      · exact absurd hp hmem
      · rfl
    rw [hall] at hwalk
    exact ⟨fuel, hwalk⟩

theorem le_of_walk {mem : ℕ → BitVec 8} {fuel pos n : ℕ} (h : walk mem fuel pos = some n) :
    pos ≤ n := by
  induction fuel generalizing pos with
  | zero => cases h
  | succ fuel ih =>
    rw [walk] at h
    split at h
    · exact Nat.le_of_eq (Option.some.inj h)
    · have := ih h
      omega

/-- Memory past the position at which a reader stops does not matter. -/
theorem walk_congr {mem mem' : ℕ → BitVec 8} {fuel pos n : ℕ} (hmem : ∀ i ≤ n, mem' i = mem i)
    (h : walk mem fuel pos = some n) : walk mem' fuel pos = some n := by
  induction fuel generalizing pos with
  | zero => cases h
  | succ fuel ih =>
    rw [walk, hmem pos (le_of_walk h)]
    rw [walk] at h
    split at h
    · rwa [if_pos (by assumption)]
    · rw [if_neg (by assumption)]
      exact ih h

/-- A reader looks at nothing past the position at which it stops. -/
theorem le_of_mem_walkReads {mem : ℕ → BitVec 8} {fuel pos n : ℕ}
    (h : walk mem fuel pos = some n) : ∀ i ∈ walkReads mem fuel pos, i ≤ n := by
  induction fuel generalizing pos with
  | zero => cases h
  | succ fuel ih =>
    have hpos := le_of_walk h
    rw [walk] at h
    intro i hi
    rw [walkReads] at hi
    rcases List.mem_cons.mp hi with rfl | hi
    · exact hpos
    · by_cases h0 : mem pos = 0
      · rw [if_pos h0] at hi
        cases hi
      · rw [if_neg h0] at h hi
        exact ih h i hi

/-- Strings that fit a length can be told from their layout, if it is known how many there are. -/
theorem decode_encode_of_length_lt {ps : List (List (BitVec 8))} (hps : ∀ p ∈ ps, p.length < 256)
    {fuel : ℕ} (hfuel : ps.length ≤ fuel) : decode fuel (encode ps) = ps := by
  induction ps generalizing fuel with
  | nil => rcases fuel with _ | _ <;> rfl
  | cons p ps ih =>
    rcases fuel with _ | fuel
    · cases hfuel
    · have htail : decode fuel (encode ps) = ps :=
        ih (fun q hq => hps q (List.mem_cons_of_mem _ hq)) (Nat.le_of_succ_le_succ hfuel)
      rw [encode_cons, decode, BitVec.toNat_ofNat, Nat.mod_eq_of_lt (hps p List.mem_cons_self)]
      simp [htail]

/-- The entries of a vector can be told from its layout. -/
theorem decode_encode {ps : List (List (BitVec 8))} (hps : ∀ p ∈ ps, Entry p) {fuel : ℕ}
    (hfuel : ps.length ≤ fuel) : decode fuel (encode ps) = ps :=
  decode_encode_of_length_lt (fun p hp => (hps p hp).2) hfuel

theorem Encodes.unique {ps qs : List (List (BitVec 8))} {bytes : List (BitVec 8)}
    (hps : Encodes ps bytes) (hqs : Encodes qs bytes) : ps = qs := by
  rw [← decode_encode hps.1 (Nat.le_add_right _ qs.length), ← hps.2, hqs.2]
  exact decode_encode hqs.1 (Nat.le_add_left _ _)

end LengthPrefixed
