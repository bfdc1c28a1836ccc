import OpenSSLWasm.BignumBytes
import OpenSSLWasm.Lib.HandleTable
import OpenSSLWasm.Lib.Ledger
import Mathlib.Algebra.Group.Int.Even
import Mathlib.Data.Int.ModEq
import Mathlib.Data.Nat.Prime.Defs
import Mathlib.RingTheory.Coprime.Lemmas
import Mathlib.Tactic.Linarith

/-!
# Arithmetic on BIGNUM resources

A `bn` resource of `src/bignum.c` is a `BIGNUM`. The calls compute new numbers from numbers that are
there. Some look at what libcrypto returns, and some do not.

## Main definitions

* `BnLib`: libcrypto, as it behaves in one call;
* `eval`: the calls on numbers, each with its ledger;
* `State` and `step`: resources that come and go;
* `Means`: what a call on integers should answer;
* `Computes`: runs of a calculator that has integers under its handles.

## Main results

* `eval_means`: a call that libcrypto serves answers what it means;
* `computes_run`: the component is such a calculator, as long as libcrypto serves the calls;
* `settle_numbers`: what is held between two calls.
-/

namespace OpenSSLWasm.Bignum

open Ledger Transcript

/-! ## Calls and answers -/

/-- The calls, with operands in `η`. -/
inductive Call (η : Type)
  | zero
  | fromU64 (v : BitVec 64)
  | fromDec (s : List Byte)
  | fromHex (s : List Byte)
  | fromBeBytes (bytes : ListU8)
  | clone (a : η)
  | toDec (a : η)
  | toHex (a : η)
  | toBeBytes (a : η) (maybePadTo : Option (BitVec 32))
  | bits (a : η)
  | isZero (a : η)
  | isOne (a : η)
  | isOdd (a : η)
  | isNegative (a : η)
  | equals (a b : η)
  | compare (a b : η)
  | add (a b : η)
  | sub (a b : η)
  | mul (a b : η)
  | div (a b : η)
  | modulo (a m : η)
  | modExp (a exp m : η)
  | modInverse (a m : η)
  | gcd (a b : η)
  | randomBelow (a : η)
  | isPrime (a : η)
  | generatePrime (bits : BitVec 32) (safe : Bool)

/-- The operands, one after the other. -/
def Call.operands {η : Type} : Call η → List η
  | zero | fromU64 _ | fromDec _ | fromHex _ | fromBeBytes _ | generatePrime _ _ => []
  | clone a | toDec a | toHex a | toBeBytes a _ | bits a | isZero a | isOne a | isOdd a |
    isNegative a | randomBelow a | isPrime a => [a]
  | equals a b | compare a b | add a b | sub a b | mul a b | div a b | modulo a b |
    modInverse a b | gcd a b => [a, b]
  | modExp a e m => [a, e, m]

/-- The call on what the operands stand for, if they all stand for something. -/
def Call.mapM {η θ : Type} (f : η → Option θ) : Call η → Option (Call θ)
  | zero => some zero
  | fromU64 v => some (fromU64 v)
  | fromDec s => some (fromDec s)
  | fromHex s => some (fromHex s)
  | fromBeBytes bytes => some (fromBeBytes bytes)
  | clone a => (f a).map clone
  | toDec a => (f a).map toDec
  | toHex a => (f a).map toHex
  | toBeBytes a p => (f a).map (toBeBytes · p)
  | bits a => (f a).map bits
  | isZero a => (f a).map isZero
  | isOne a => (f a).map isOne
  | isOdd a => (f a).map isOdd
  | isNegative a => (f a).map isNegative
  | equals a b => do some (equals (← f a) (← f b))
  | compare a b => do some (compare (← f a) (← f b))
  | add a b => do some (add (← f a) (← f b))
  | sub a b => do some (sub (← f a) (← f b))
  | mul a b => do some (mul (← f a) (← f b))
  | div a b => do some (div (← f a) (← f b))
  | modulo a m => do some (modulo (← f a) (← f m))
  | modExp a e m => do some (modExp (← f a) (← f e) (← f m))
  | modInverse a m => do some (modInverse (← f a) (← f m))
  | gcd a b => do some (gcd (← f a) (← f b))
  | randomBelow a => (f a).map randomBelow
  | isPrime a => (f a).map isPrime
  | generatePrime n safe => some (generatePrime n safe)

/-- The answers, with new numbers in `ν`. -/
inductive Answer (ν : Type)
  | made (ns : List ν)
  | failed (e : BnError)
  | text (s : List Byte)
  | bytes (b : ListU8)
  | flag (b : Bool)
  | size (n : BitVec 32)
  /-- -1, 0 or 1. -/
  | order (c : ℤ)
  | dropped
  /-- The component has aborted, or done something with NULL or a handle that is not there. -/
  | stuck

namespace Answer

variable {ν ν' : Type}

/-- The new numbers. -/
def numbers : Answer ν → List ν
  | made ns => ns
  | _ => []

/-- The answer with other new numbers. -/
def withNumbers (r : Answer ν) (ns : List ν') : Answer ν' :=
  match r with
  | made _ => made ns
  | failed e => failed e
  | text s => text s
  | bytes b => bytes b
  | flag b => flag b
  | size n => size n
  | order c => order c
  | dropped => dropped
  | stuck => stuck

def map (f : ν → ν') (r : Answer ν) : Answer ν' := r.withNumbers (r.numbers.map f)

/-- The answer that the caller sees, with handles from `n` on. -/
def withHandles (n : ℕ) (r : Answer ν) : Answer ℕ :=
  r.withNumbers (List.range' n r.numbers.length)

@[simp] theorem numbers_map (f : ν → ν') (r : Answer ν) : (r.map f).numbers = r.numbers.map f := by
  cases r <;> rfl

@[simp] theorem withHandles_map (f : ν → ν') (n : ℕ) (r : Answer ν) :
    (r.map f).withHandles n = r.withHandles n := by
  cases r <;> simp [map, withHandles, withNumbers, numbers]

end Answer

/-! ## libcrypto -/

/-- What the calls take. -/
inductive Resource
  /-- The `BIGNUM` with a number. -/
  | bn (o : ℕ)
  | bnCtx
  deriving DecidableEq

/-- What is behind a resource: the number of a `BIGNUM`, and its value. If the resource is NULL
there is no value, and the `BIGNUM` is one that nobody has. -/
structure BnRep where
  object : ℕ
  value : Option ℤ

/-- libcrypto, as it behaves in one call. Where what a function returns is not looked at, that is a
`Bool`, with what the function leaves in its result. -/
structure BnLib where
  /-- The first and the second `BN_new` of the call. -/
  bnNew : Bool × Bool
  bnCtxNew : Bool
  /-- Memory for a copy, or for a conversion from or to a string. -/
  memory : Bool
  /-- What is in the memory that is allocated for bytes. -/
  fresh : Ptr
  bin2bnNegative : Ptr → ℤ → Option ℤ
  add : ℤ → ℤ → Bool × ℤ
  sub : ℤ → ℤ → Bool × ℤ
  mul : ℤ → ℤ → Bool × ℤ
  gcd : ℤ → ℤ → Bool × ℤ
  div : ℤ → ℤ → Option (ℤ × ℤ)
  mod : ℤ → ℤ → Option ℤ
  modExp : ℤ → ℤ → ℤ → Option ℤ
  modInverse : ℤ → ℤ → Option ℤ
  randRange : ℤ → Option ℤ
  checkPrime : ℤ → ℤ
  generatePrimeEx : ℤ → Bool → Option ℤ
  peekLastError : BitVec 32

/-! ## The calls -/

section

variable (B : BnLib) (o : ℕ)

/-- A new number with a value, unless `BN_new` fails. -/
def newBn (z : ℤ) : Acct Resource (Answer BnRep) :=
  if B.bnNew.1 = false then pure .stuck
  else do
    acquire (.bn o)
    pure (.made [⟨o, z⟩])

def bnZero : Acct Resource (Answer BnRep) := newBn B o 0

/-- See `bnFromU64`: there is a number for the high half, and nobody checks that it is there. -/
def bnFromU64Acct (P : Platform) (v : BitVec 64) : Acct Resource (Answer BnRep) :=
  if P.bnUlongBits / 8 < 64 / 8 ∧ v >>> 32 ≠ 0 then
    if B.bnNew.1 = false ∨ B.bnNew.2 = false then pure .stuck
    else do
      acquire (.bn o)
      acquire (.bn (o + 1))
      release (.bn (o + 1))
      pure (.made [⟨o, bnFromU64 P v⟩])
  else newBn B o (bnFromU64 P v)

/-- A number that is parsed, or copied. -/
def parsed (r : Except BnError ℤ) : Acct Resource (Answer BnRep) :=
  match r with
  | .error e => pure (.failed e)
  | .ok z => do
    acquire (.bn o)
    pure (.made [⟨o, z⟩])

def bnFromDecAcct (s : List Byte) : Acct Resource (Answer BnRep) :=
  parsed o (if B.memory = false then .error .parseFailed else bnFromDec s)

def bnFromHexAcct (s : List Byte) : Acct Resource (Answer BnRep) :=
  parsed o (if B.memory = false then .error .parseFailed else bnFromHex s)

def bnFromBeBytesAcct (bytes : ListU8) : Acct Resource (Answer BnRep) :=
  match bnFromBeBytes B.bin2bnNegative bytes with
  | none => pure .stuck
  | some z => newBn B o z

def bnClone (a : ℤ) : Acct Resource (Answer BnRep) :=
  if B.memory = false then pure .stuck else parsed o (.ok a)

/-- A text that libcrypto cannot make is empty. -/
def textOf (s : List Byte) : Acct Resource (Answer BnRep) :=
  pure (.text (if B.memory = false then [] else s))

/-- `BN_cmp`. -/
def bnCmp (a b : ℤ) : ℤ := if a < b then -1 else if a = b then 0 else 1

def bnEquals (a b : ℤ) : Bool := bnCmp a b = 0

def bnCompare (a b : ℤ) : ℤ :=
  let c := bnCmp a b
  if 0 < c then 1 else if c < 0 then -1 else 0

/-- A result of which nobody checks that it was computed. -/
def unchecked (r : Bool × ℤ) : Acct Resource (Answer BnRep) := newBn B o r.2

def bnAdd (a b : ℤ) : Acct Resource (Answer BnRep) := unchecked B o (B.add a b)

def bnSub (a b : ℤ) : Acct Resource (Answer BnRep) := unchecked B o (B.sub a b)

/-- The same with a context. -/
def uncheckedCtx (r : Bool × ℤ) : Acct Resource (Answer BnRep) :=
  if B.bnCtxNew = false ∨ B.bnNew.1 = false then pure .stuck
  else do
    acquire .bnCtx
    acquire (.bn o)
    release .bnCtx
    pure (.made [⟨o, r.2⟩])

def bnMul (a b : ℤ) : Acct Resource (Answer BnRep) := uncheckedCtx B o (B.mul a b)

def bnGcd (a b : ℤ) : Acct Resource (Answer BnRep) := uncheckedCtx B o (B.gcd a b)

def bnDiv (a b : ℤ) : Acct Resource (Answer BnRep) :=
  if b = 0 then pure (.failed .divByZero)
  else if B.bnCtxNew = false ∨ B.bnNew.1 = false ∨ B.bnNew.2 = false then pure .stuck
  else do
    acquire .bnCtx
    acquireAll [.bn o, .bn (o + 1)]
    release .bnCtx
    match B.div a b with
    | none => do
      releaseAll [.bn o, .bn (o + 1)]
      pure (.failed (.internal B.peekLastError))
    | some (q, r) => pure (.made [⟨o, q⟩, ⟨o + 1, r⟩])

/-- A result that is there or not, in a number that is freed if it is not. -/
def deliver (r : Option ℤ) : Acct Resource (Answer BnRep) :=
  match r with
  | none => do
    release (.bn o)
    pure (.failed (.internal B.peekLastError))
  | some z => pure (.made [⟨o, z⟩])

/-- With a context, and a modulus that must not be 0. -/
def checkedMod (m : ℤ) (r : Option ℤ) : Acct Resource (Answer BnRep) :=
  if m = 0 then pure (.failed .divByZero)
  else if B.bnCtxNew = false ∨ B.bnNew.1 = false then pure .stuck
  else do
    acquire .bnCtx
    acquire (.bn o)
    release .bnCtx
    deliver B o r

def bnModulo (a m : ℤ) : Acct Resource (Answer BnRep) := checkedMod B o m (B.mod a m)

def bnModExp (a e m : ℤ) : Acct Resource (Answer BnRep) := checkedMod B o m (B.modExp a e m)

/-- That `BN_new` has given a number is not checked. `BN_mod_inverse` makes one of its own then, and
the resource is NULL. -/
def bnModInverse (a m : ℤ) : Acct Resource (Answer BnRep) :=
  if B.bnCtxNew = false then pure .stuck
  else do
    acquire .bnCtx
    if B.bnNew.1 then
      acquire (.bn o)
      release .bnCtx
      match B.modInverse a m with
      | some z => pure (.made [⟨o, z⟩])
      | none => do
        release (.bn o)
        pure (.failed .notInvertible)
    else if B.bnNew.2 ∧ (B.modInverse a m).isSome then
      acquire (.bn o)
      release .bnCtx
      pure (.made [⟨o, none⟩])
    else
      release .bnCtx
      pure (.failed .notInvertible)

def bnRandomBelow (a : ℤ) : Acct Resource (Answer BnRep) :=
  if a = 0 then pure (.failed .outOfRange)
  else if B.bnNew.1 = false then pure .stuck
  else do
    acquire (.bn o)
    deliver B o (B.randRange a)

/-- Without a context libcrypto makes one of its own. -/
def bnIsPrime (a : ℤ) : Acct Resource (Answer BnRep) :=
  if B.bnCtxNew then do
    acquire .bnCtx
    release .bnCtx
    pure (.flag (B.checkPrime a = 1))
  else pure (.flag (B.checkPrime a = 1))

def bnGeneratePrime (bits : BitVec 32) (safe : Bool) : Acct Resource (Answer BnRep) :=
  if bits < 2 then pure (.failed .outOfRange)
  else if B.bnNew.1 = false then pure .stuck
  else do
    acquire (.bn o)
    -- the count of bits is given as an `int`
    deliver B o (B.generatePrimeEx bits.toInt safe)

def eval (P : Platform) : Call ℤ → Acct Resource (Answer BnRep)
  | .zero => bnZero B o
  | .fromU64 v => bnFromU64Acct B o P v
  | .fromDec s => bnFromDecAcct B o s
  | .fromHex s => bnFromHexAcct B o s
  | .fromBeBytes bytes => bnFromBeBytesAcct B o bytes
  | .clone a => bnClone B o a
  | .toDec a => textOf B (bnToDec a)
  | .toHex a => textOf B (bnToHex a)
  | .toBeBytes a maybePadTo => pure (.bytes (bnToBeBytes B.fresh a maybePadTo))
  | .bits a => pure (.size (BitVec.ofNat 32 (Nat.size a.natAbs)))
  | .isZero a => pure (.flag (a = 0))
  | .isOne a => pure (.flag (a = 1))
  | .isOdd a => pure (.flag (a % 2 ≠ 0))
  | .isNegative a => pure (.flag (a < 0))
  | .equals a b => pure (.flag (bnEquals a b))
  | .compare a b => pure (.order (bnCompare a b))
  | .add a b => bnAdd B o a b
  | .sub a b => bnSub B o a b
  | .mul a b => bnMul B o a b
  | .div a b => bnDiv B o a b
  | .modulo a m => bnModulo B o a m
  | .modExp a e m => bnModExp B o a e m
  | .modInverse a m => bnModInverse B o a m
  | .gcd a b => bnGcd B o a b
  | .randomBelow a => bnRandomBelow B o a
  | .isPrime a => bnIsPrime B a
  | .generatePrime n safe => bnGeneratePrime B o n safe

end

/-! ## Resources -/

/-- What is asked of the component. -/
inductive Op
  | call (c : Call ℕ)
  | drop (h : ℕ)

structure State where
  numbers : HandleTable BnRep := .empty
  /-- The number of the next `BIGNUM`. -/
  objects : ℕ := 0
  /-- The `BIGNUM`s that nobody has or will have. -/
  lost : List ℕ := []
  stuck : Bool := false

namespace State

variable (s : State)

/-- What is held between two calls. -/
def owned : Multiset Resource :=
  s.numbers.owned (fun _ r => {.bn r.object}) + (s.lost.map Resource.bn : Multiset Resource)

/-- The number behind a handle, if there is one. -/
def value (h : ℕ) : Option ℤ := (s.numbers.entry h).bind BnRep.value

/-- The `BIGNUM` behind a handle. -/
def object? (h : ℕ) : Option Resource := (s.numbers.entry h).map fun r => .bn r.object

end State

section

variable (P : Platform) (s : State)

/-- A call, with what it reads and what it takes. -/
def called (B : BnLib) (c : Call ℕ) : Acct Resource (Answer BnRep) :=
  if s.stuck then pure .stuck
  else
    match c.mapM s.value with
    | none => pure .stuck
    | some v => do
      useAll (c.operands.filterMap s.object?)
      eval B s.objects P v

/-- One call, with its answer and its ledger. -/
def step : BnLib × Op → (Answer ℕ × List (Entry Resource)) × State
  | (B, .call c) =>
    let a := called P s B c
    ((a.result.withHandles s.numbers.next, a.entries),
      match a.result with
      | .stuck => { s with stuck := true }
      | r => { s with numbers := s.numbers.insertAll r.numbers, objects := s.objects + 2 })
  | (_, .drop h) =>
    match s.numbers.entry h with
    | none => ((.stuck, []), s)
    -- the destructor does nothing for NULL
    | some ⟨o, none⟩ =>
      ((.dropped, []), { s with numbers := s.numbers.remove h, lost := o :: s.lost })
    | some ⟨o, some _⟩ =>
      ((.dropped, [.release (.bn o)]), { s with numbers := s.numbers.remove h })

end

/-! ## What the calls mean -/

/-- The answer to a call on integers. -/
def Means : Call ℤ → Answer ℤ → Prop
  | .zero, r => r = .made [0]
  | .fromU64 v, r => r = .made [(v.toNat : ℤ)]
  | .fromDec s, r =>
    (r = .failed .parseFailed ∨ ∃ z, r = .made [z]) ∧ ∀ z, decNumerals.Denotes s z → r = .made [z]
  | .fromHex s, r =>
    (r = .failed .parseFailed ∨ ∃ z, r = .made [z]) ∧ ∀ z, hexNumerals.Denotes s z → r = .made [z]
  | .fromBeBytes bytes, r => r = .made [(Endian.beValue bytes.bytes : ℤ)]
  | .clone a, r => r = .made [a]
  | .toDec a, r => ∃ s, r = .text s ∧ decNumerals.Denotes s a
  | .toHex a, r => ∃ s, r = .text s ∧ hexNumerals.Denotes s a
  | .toBeBytes a maybePadTo, r => ∃ b, r = .bytes b ∧ b.bytes = paddedBytes a.natAbs maybePadTo
  | .bits a, r => ∃ n, r = .size n ∧ n.toNat = Nat.size a.natAbs
  | .isZero a, r => r = .flag (a = 0)
  | .isOne a, r => r = .flag (a = 1)
  | .isOdd a, r => r = .flag (Odd a)
  | .isNegative a, r => r = .flag (a < 0)
  | .equals a b, r => r = .flag (a = b)
  | .compare a b, r => r = .order (a - b).sign
  | .add a b, r => r = .made [a + b]
  | .sub a b, r => r = .made [a - b]
  | .mul a b, r => r = .made [a * b]
  -- towards zero, so that the remainder has the sign of the dividend
  | .div a b, r => r = if b = 0 then .failed .divByZero else .made [a.tdiv b, a.tmod b]
  | .modulo a m, r => r = if m = 0 then .failed .divByZero else .made [a.tmod m]
  | .modExp a e m, r =>
    if m = 0 then r = .failed .divByZero
    else ∃ z, r = .made [z] ∧ (0 ≤ e → z = a ^ e.toNat % m)
  | .modInverse a m, r =>
    if Int.gcd a m = 1 ∧ 1 < m.natAbs then
      ∃ z, r = .made [z] ∧ 0 ≤ z ∧ z < m.natAbs ∧ a * z % m = 1 % m
    else r = .failed .notInvertible
  | .gcd a b, r => r = .made [(Int.gcd a b : ℤ)]
  | .randomBelow a, r =>
    if a = 0 then r = .failed .outOfRange
    else if a < 0 then ∃ e, r = .failed (.internal e)
    else ∃ z, r = .made [z] ∧ 0 ≤ z ∧ z < a
  -- a composite may pass
  | .isPrime a, r => ∃ b, r = .flag b ∧ (a.toNat.Prime → b = true)
  | .generatePrime bits _, r =>
    if bits.toNat < 2 then r = .failed .outOfRange
    else if 2 ^ 31 ≤ bits.toNat then ∃ e, r = .failed (.internal e)
    else ∃ z, r = .made [z] ∧ 2 ^ (bits.toNat - 1) ≤ z ∧ z < 2 ^ bits.toNat

/-- The runs of a calculator from no numbers on, with the integers that are there after them: each
call answers what it means on the integers under its handles, and these do not change. -/
inductive Computes : List (Op × Answer ℕ) → HandleTable ℤ → Prop
  | start : Computes [] .empty
  | call {l : List (Op × Answer ℕ)} {t : HandleTable ℤ} {c : Call ℕ} {v : Call ℤ} {r : Answer ℤ}
      (hl : Computes l t) (hv : c.mapM t.entry = some v) (hr : Means v r) :
      Computes (l ++ [(.call c, r.withHandles t.next)]) (t.insertAll r.numbers)
  | drop {l : List (Op × Answer ℕ)} {t : HandleTable ℤ} {h : ℕ} (hl : Computes l t)
      (hh : t.entry h ≠ none) : Computes (l ++ [(.drop h, .dropped)]) (t.remove h)

/-- What libcrypto promises about results that are there. -/
structure BnLib.Documented (B : BnLib) : Prop where
  add : ∀ a b, (B.add a b).1 = true → (B.add a b).2 = a + b
  sub : ∀ a b, (B.sub a b).1 = true → (B.sub a b).2 = a - b
  mul : ∀ a b, (B.mul a b).1 = true → (B.mul a b).2 = a * b
  gcd : ∀ a b, (B.gcd a b).1 = true → (B.gcd a b).2 = Int.gcd a b
  div : ∀ {a b q r}, B.div a b = some (q, r) → q = a.tdiv b ∧ r = a.tmod b
  mod : ∀ {a m r}, B.mod a m = some r → r = a.tmod m
  modExp : ∀ {a e m r}, 0 ≤ e → B.modExp a e m = some r → r = a ^ e.toNat % m
  modInverse : ∀ {a m r}, B.modInverse a m = some r →
    (Int.gcd a m = 1 ∧ 1 < m.natAbs) ∧ 0 ≤ r ∧ r < m.natAbs ∧ a * r % m = 1 % m
  randRange : ∀ {a r}, B.randRange a = some r → 0 ≤ r ∧ r < a
  /-- No prime is found to be composite. -/
  checkPrime : ∀ {a : ℤ}, a.toNat.Prime → B.checkPrime a ≠ 0
  checkPrime_cases : ∀ a, B.checkPrime a = 1 ∨ B.checkPrime a = 0 ∨ B.checkPrime a = -1
  generatePrimeEx : ∀ {n safe r}, B.generatePrimeEx n safe = some r →
    2 ≤ n ∧ 2 ^ (n.toNat - 1) ≤ r ∧ r < 2 ^ n.toNat

/-- Nothing that a call needs fails for want of memory or randomness, and its lengths are those that
libcrypto takes. -/
def BnLib.Serves (B : BnLib) : Call ℤ → Prop
  | .zero => B.bnNew.1 = true
  | .fromU64 _ => B.bnNew = (true, true)
  | .fromDec _ | .fromHex _ | .clone _ | .toDec _ | .toHex _ => B.memory = true
  | .fromBeBytes bytes => B.bnNew.1 = true ∧ bytes.len < 2 ^ 31
  | .toBeBytes a maybePadTo => bnNumBytes a < 2 ^ 31 ∧ padLen maybePadTo < 2 ^ 31
  | .bits a => Nat.size a.natAbs < 2 ^ 31
  | .isZero _ | .isOne _ | .isOdd _ | .isNegative _ | .equals _ _ | .compare _ _ => True
  | .add a b => B.bnNew.1 = true ∧ (B.add a b).1 = true
  | .sub a b => B.bnNew.1 = true ∧ (B.sub a b).1 = true
  | .mul a b => B.bnCtxNew = true ∧ B.bnNew.1 = true ∧ (B.mul a b).1 = true
  | .gcd a b => B.bnCtxNew = true ∧ B.bnNew.1 = true ∧ (B.gcd a b).1 = true
  | .div a b => b ≠ 0 →
    B.bnCtxNew = true ∧ B.bnNew.1 = true ∧ B.bnNew.2 = true ∧ (B.div a b).isSome = true
  | .modulo a m => m ≠ 0 →
    B.bnCtxNew = true ∧ B.bnNew.1 = true ∧ (B.mod a m).isSome = true
  | .modExp a e m => m ≠ 0 →
    B.bnCtxNew = true ∧ B.bnNew.1 = true ∧ (B.modExp a e m).isSome = true
  | .modInverse a m => B.bnCtxNew = true ∧ B.bnNew.1 = true ∧
    (Int.gcd a m = 1 ∧ 1 < m.natAbs → (B.modInverse a m).isSome = true)
  | .randomBelow a => a ≠ 0 → B.bnNew.1 = true ∧ (0 < a → (B.randRange a).isSome = true)
  | .isPrime a => B.checkPrime a ≠ -1
  | .generatePrime n safe => 2 ≤ n.toNat →
    B.bnNew.1 = true ∧ (n.toNat < 2 ^ 31 → (B.generatePrimeEx n.toNat safe).isSome = true)

/-! ## A call means what it answers -/

section

variable {P : Platform} {B : BnLib} {o : ℕ}

/-- What a computation answers, without the `BIGNUM`s. -/
def answer (p : Acct Resource (Answer BnRep)) : Answer (Option ℤ) := p.result.map BnRep.value

theorem answer_newBn {z : ℤ} (h : B.bnNew.1 = true) : answer (newBn B o z) = .made [some z] := by
  rw [newBn, h]
  rfl

theorem answer_parsed (r : Except BnError ℤ) :
    answer (parsed o r) = match r with
      | .error e => .failed e
      | .ok z => .made [some z] := by
  cases r <;> rfl

theorem answer_fromU64 (h : B.bnNew = (true, true)) (v : BitVec 64) :
    answer (bnFromU64Acct B o P v) = .made [some (v.toNat : ℤ)] := by
  have hfst : B.bnNew.1 = true := congrArg Prod.fst h
  rw [bnFromU64Acct, bnFromU64_eq]
  split_ifs with hhigh hnew
  · rw [h] at hnew
    exact absurd hnew (by decide)
  · rfl
  · exact answer_newBn hfst

theorem answer_uncheckedCtx {r : Bool × ℤ} (hctx : B.bnCtxNew = true) (h : B.bnNew.1 = true) :
    answer (uncheckedCtx B o r) = .made [some r.2] := by
  rw [uncheckedCtx, hctx, h]
  rfl

theorem answer_deliver (r : Option ℤ) :
    answer (deliver B o r) = match r with
      | none => .failed (.internal B.peekLastError)
      | some z => .made [some z] := by
  cases r <;> rfl

theorem answer_checkedMod {m : ℤ} {r : Option ℤ}
    (h : m ≠ 0 → B.bnCtxNew = true ∧ B.bnNew.1 = true ∧ r.isSome = true) :
    answer (checkedMod B o m r) =
      if m = 0 then .failed .divByZero else .made [some (r.getD 0)] := by
  rw [checkedMod]
  by_cases hm : m = 0
  · rw [if_pos hm, if_pos hm]
    rfl
  · obtain ⟨hctx, hnew, hr⟩ := h hm
    obtain ⟨z, rfl⟩ := Option.isSome_iff_exists.mp hr
    rw [if_neg hm, if_neg hm, hctx, hnew]
    rfl

theorem bnCmp_eq (a b : ℤ) : bnCmp a b = (a - b).sign := by
  rw [bnCmp]
  split_ifs with hlt heq
  · exact (Int.sign_eq_neg_one_of_neg (by omega)).symm
  · rw [heq, Int.sub_self, Int.sign_zero]
  · exact (Int.sign_eq_one_of_pos (by omega)).symm

theorem bnCompare_eq (a b : ℤ) : bnCompare a b = (a - b).sign := by
  rw [bnCompare, bnCmp_eq]
  rcases Int.lt_trichotomy (a - b) 0 with h | h | h
  · rw [Int.sign_eq_neg_one_of_neg h]
    rfl
  · rw [h]
    rfl
  · rw [Int.sign_eq_one_of_pos h]
    rfl

theorem bnEquals_eq (a b : ℤ) : bnEquals a b = decide (a = b) := by
  rw [bnEquals, bnCmp_eq]
  refine decide_eq_decide.mpr ?_
  rw [Int.sign_eq_zero_iff_zero, Int.sub_eq_zero]

theorem means_div (hB : B.Documented) {a b : ℤ} (h : B.Serves (.div a b)) :
    ∃ r, Means (.div a b) r ∧ answer (bnDiv B o a b) = r.map some := by
  refine ⟨_, rfl, ?_⟩
  rw [bnDiv]
  by_cases hb : b = 0
  · rw [if_pos hb, if_pos hb]
    rfl
  · obtain ⟨hctx, hfst, hsnd, hdiv⟩ := h hb
    obtain ⟨⟨q, r⟩, hqr⟩ := Option.isSome_iff_exists.mp hdiv
    obtain ⟨rfl, rfl⟩ := hB.div hqr
    rw [if_neg hb, if_neg hb, hctx, hfst, hsnd, hqr]
    rfl

theorem means_modulo (hB : B.Documented) {a m : ℤ} (h : B.Serves (.modulo a m)) :
    ∃ r, Means (.modulo a m) r ∧ answer (bnModulo B o a m) = r.map some := by
  refine ⟨_, rfl, ?_⟩
  rw [bnModulo, answer_checkedMod h]
  by_cases hm : m = 0
  · rw [if_pos hm, if_pos hm]
    rfl
  · obtain ⟨r, hr⟩ := Option.isSome_iff_exists.mp (h hm).2.2
    rw [if_neg hm, if_neg hm, hr, hB.mod hr]
    rfl

theorem means_modExp (hB : B.Documented) {a e m : ℤ} (h : B.Serves (.modExp a e m)) :
    ∃ r, Means (.modExp a e m) r ∧ answer (bnModExp B o a e m) = r.map some := by
  rw [bnModExp, answer_checkedMod h]
  simp only [Means]
  by_cases hm : m = 0
  · simp only [if_pos hm]
    exact ⟨_, rfl, rfl⟩
  · obtain ⟨r, hr⟩ := Option.isSome_iff_exists.mp (h hm).2.2
    simp only [if_neg hm, hr]
    exact ⟨_, ⟨r, rfl, fun he => hB.modExp he hr⟩, rfl⟩

theorem means_modInverse (hB : B.Documented) {a m : ℤ} (h : B.Serves (.modInverse a m)) :
    ∃ r, Means (.modInverse a m) r ∧ answer (bnModInverse B o a m) = r.map some := by
  obtain ⟨hctx, hnew, hinverse⟩ := h
  rw [bnModInverse, hctx, hnew]
  simp only [Means]
  cases hr : B.modInverse a m with
  | none =>
    -- then there is none
    have hnot : ¬(Int.gcd a m = 1 ∧ 1 < m.natAbs) := by
      intro hcoprime
      rw [hr] at hinverse
      exact absurd (hinverse hcoprime) (by decide)
    simp only [if_neg hnot]
    exact ⟨_, rfl, rfl⟩
  | some z =>
    obtain ⟨hcoprime, hz⟩ := hB.modInverse hr
    simp only [if_pos hcoprime]
    exact ⟨_, ⟨z, rfl, hz⟩, rfl⟩

theorem means_randomBelow (hB : B.Documented) {a : ℤ} (h : B.Serves (.randomBelow a)) :
    ∃ r, Means (.randomBelow a) r ∧ answer (bnRandomBelow B o a) = r.map some := by
  rw [bnRandomBelow]
  simp only [Means]
  by_cases ha : a = 0
  · simp only [if_pos ha]
    exact ⟨_, rfl, rfl⟩
  obtain ⟨hnew, hrand⟩ := h ha
  simp only [if_neg ha, hnew]
  cases hr : B.randRange a with
  | none =>
    have hneg : a < 0 := by
      by_contra hnot
      rw [hr] at hrand
      exact absurd (hrand (by omega)) (by decide)
    simp only [if_pos hneg]
    exact ⟨_, ⟨_, rfl⟩, rfl⟩
  | some z =>
    have hz := hB.randRange hr
    have hpos : ¬a < 0 := by omega
    simp only [if_neg hpos]
    exact ⟨_, ⟨z, rfl, hz⟩, rfl⟩

theorem means_isPrime (hB : B.Documented) {a : ℤ} (h : B.Serves (.isPrime a)) :
    ∃ r, Means (.isPrime a) r ∧ answer (bnIsPrime B a) = r.map some := by
  have hresult : answer (bnIsPrime B a) = .flag (B.checkPrime a = 1) := by
    rw [bnIsPrime]
    split <;> rfl
  refine ⟨_, ⟨_, rfl, fun hprime => ?_⟩, hresult⟩
  rcases hB.checkPrime_cases a with hone | hzero | herror
  · exact decide_eq_true hone
  · exact absurd hzero (hB.checkPrime hprime)
  · exact absurd herror h

theorem means_generatePrime (hB : B.Documented) {n : BitVec 32} {safe : Bool}
    (h : B.Serves (.generatePrime n safe)) :
    ∃ r, Means (.generatePrime n safe) r ∧ answer (bnGeneratePrime B o n safe) = r.map some := by
  have hsmall : n < 2 ↔ n.toNat < 2 := BitVec.lt_def
  rw [bnGeneratePrime]
  simp only [Means]
  by_cases hn : n.toNat < 2
  · rw [if_pos (hsmall.mpr hn)]
    simp only [if_pos hn]
    exact ⟨_, rfl, rfl⟩
  obtain ⟨hnew, hgenerate⟩ := h (by omega)
  rw [if_neg (mt hsmall.mp hn), hnew]
  simp only [if_neg hn]
  by_cases hlarge : 2 ^ 31 ≤ n.toNat
  · -- as an `int` the count is negative
    have hint : n.toInt < 0 := by
      rw [BitVec.toInt_eq_toNat_cond]
      split_ifs <;> omega
    have hnone : B.generatePrimeEx n.toInt safe = none := by
      refine Option.eq_none_iff_forall_ne_some.mpr fun z hz => ?_
      have := (hB.generatePrimeEx hz).1
      omega
    simp only [if_pos hlarge, hnone]
    exact ⟨_, ⟨_, rfl⟩, rfl⟩
  · have hint : n.toInt = n.toNat := BitVec.toInt_eq_toNat_of_lt (by omega)
    obtain ⟨z, hz⟩ := Option.isSome_iff_exists.mp (hgenerate (by omega))
    have hbits := (hB.generatePrimeEx hz).2
    rw [Int.toNat_natCast] at hbits
    simp only [if_neg hlarge, hint, hz]
    exact ⟨_, ⟨z, rfl, hbits⟩, rfl⟩

/-- A string is parsed to some number, and to the one that it denotes. -/
theorem means_parsed {N : Numerals Byte} {fromString : List Byte → Except BnError ℤ} {s : List Byte}
    (hdenotes : ∀ {z}, N.Denotes s z → fromString s = .ok z)
    (herror : ∀ {e}, fromString s = .error e → e = .parseFailed) :
    ∃ r : Answer ℤ,
      ((r = .failed .parseFailed ∨ ∃ z, r = .made [z]) ∧ ∀ z, N.Denotes s z → r = .made [z]) ∧
        answer (parsed o (fromString s)) = r.map some := by
  rw [answer_parsed]
  cases hs : fromString s with
  | error e =>
    refine ⟨.failed e, ⟨Or.inl (congrArg Answer.failed (herror hs)), fun z hz => ?_⟩, rfl⟩
    rw [hdenotes hz] at hs
    cases hs
  | ok z =>
    refine ⟨.made [z], ⟨Or.inr ⟨z, rfl⟩, fun y hy => ?_⟩, rfl⟩
    rw [hdenotes hy] at hs
    rw [Except.ok.inj hs]

theorem orError_eq_error {α : Type} {r : Option α} {e e' : BnError} (h : orError r e = .error e') :
    e' = e := by
  cases r with
  | none => exact (Except.error.inj h).symm
  | some a => cases h

/-- A call that libcrypto serves answers what it means. -/
theorem eval_means (hB : B.Documented) {v : Call ℤ} (h : B.Serves v) :
    ∃ r, Means v r ∧ answer (eval B o P v) = r.map some := by
  cases v with
  | zero => exact ⟨_, rfl, answer_newBn h⟩
  | fromU64 v => exact ⟨_, rfl, answer_fromU64 h v⟩
  | fromDec s =>
    have hmemory : eval B o P (.fromDec s) = parsed o (bnFromDec s) :=
      congrArg (parsed o) (if_neg (by rw [h]; decide))
    rw [hmemory]
    exact means_parsed bnFromDec_of_denotes fun hs => orError_eq_error (bnFromDec_eq s ▸ hs)
  | fromHex s =>
    have hmemory : eval B o P (.fromHex s) = parsed o (bnFromHex s) :=
      congrArg (parsed o) (if_neg (by rw [h]; decide))
    rw [hmemory]
    exact means_parsed bnFromHex_of_denotes fun hs => orError_eq_error (bnFromHex_eq s ▸ hs)
  | fromBeBytes bytes =>
    refine ⟨_, rfl, ?_⟩
    rw [eval, bnFromBeBytesAcct, bnFromBeBytes_of_lt h.2]
    exact answer_newBn h.1
  | clone a =>
    refine ⟨_, rfl, ?_⟩
    rw [eval, bnClone, if_neg (by rw [h]; decide)]
    rfl
  | toDec a =>
    refine ⟨_, ⟨_, rfl, denotes_bnBn2dec a⟩, ?_⟩
    rw [eval, textOf, if_neg (by rw [h]; decide)]
    rfl
  | toHex a =>
    refine ⟨_, ⟨_, rfl, denotes_bnBn2hex a⟩, ?_⟩
    rw [eval, textOf, if_neg (by rw [h]; decide)]
    rfl
  | toBeBytes a maybePadTo =>
    refine ⟨_, ⟨_, rfl, ?_⟩, rfl⟩
    rw [bnToBeBytes_of_lt B.fresh h.1 h.2, paddedBytes_eq_be]
    rfl
  | bits a =>
    refine ⟨_, ⟨_, rfl, ?_⟩, rfl⟩
    have hsize : Nat.size a.natAbs < 2 ^ 31 := h
    rw [BitVec.toNat_ofNat, Nat.mod_eq_of_lt (by omega)]
  | isZero a => exact ⟨_, rfl, rfl⟩
  | isOne a => exact ⟨_, rfl, rfl⟩
  | isOdd a =>
    refine ⟨_, rfl, congrArg Answer.flag (decide_eq_decide.mpr ?_)⟩
    rw [Int.odd_iff]
    omega
  | isNegative a => exact ⟨_, rfl, rfl⟩
  | equals a b => exact ⟨_, rfl, congrArg Answer.flag (bnEquals_eq a b)⟩
  | compare a b => exact ⟨_, rfl, congrArg Answer.order (bnCompare_eq a b)⟩
  | add a b =>
    refine ⟨_, rfl, ?_⟩
    rw [← hB.add a b h.2]
    exact answer_newBn h.1
  | sub a b =>
    refine ⟨_, rfl, ?_⟩
    rw [← hB.sub a b h.2]
    exact answer_newBn h.1
  | mul a b =>
    refine ⟨_, rfl, ?_⟩
    rw [← hB.mul a b h.2.2]
    exact answer_uncheckedCtx h.1 h.2.1
  | div a b => exact means_div hB h
  | modulo a m => exact means_modulo hB h
  | modExp a e m => exact means_modExp hB h
  | modInverse a m => exact means_modInverse hB h
  | gcd a b =>
    refine ⟨_, rfl, ?_⟩
    rw [← hB.gcd a b h.2.2]
    exact answer_uncheckedCtx h.1 h.2.1
  | randomBelow a => exact means_randomBelow hB h
  | isPrime a => exact means_isPrime hB h
  | generatePrime n safe => exact means_generatePrime hB h

/-- No call means that the component aborts. -/
theorem Means.ne_stuck {v : Call ℤ} {r : Answer ℤ} (h : Means v r) : r ≠ .stuck := by
  rintro rfl
  cases v <;> simp only [Means] at h
  all_goals
    try split_ifs at h
    all_goals simp at h

end

/-! ## Runs -/

section

variable {P : Platform} {s : State} {t : HandleTable ℤ}

/-- The resources are integers. -/
structure Represents (s : State) (t : HandleTable ℤ) : Prop where
  values : s.numbers.map BnRep.value = t.map some
  live : s.stuck = false

theorem Represents.value_eq (h : Represents s t) : s.value = t.entry := by
  funext k
  have hk : (s.numbers.map BnRep.value).entry k = (t.map some).entry k := by rw [h.values]
  rw [HandleTable.entry_map, HandleTable.entry_map] at hk
  rw [State.value]
  cases hs : s.numbers.entry k with
  | none =>
    rw [hs, Option.map_none, eq_comm, Option.map_eq_none_iff] at hk
    rw [hk]
    rfl
  | some r =>
    rw [hs, Option.map_some, eq_comm, Option.map_eq_some_iff] at hk
    obtain ⟨z, hz, hr⟩ := hk
    rw [hz]
    exact hr.symm

theorem Represents.next_eq (h : Represents s t) : s.numbers.next = t.next :=
  congrArg HandleTable.next h.values

/-- A call on numbers that are there, which libcrypto serves. -/
def Served (s : State) : BnLib × Op → Prop
  | (B, .call c) => B.Documented ∧ ∃ v, c.mapM s.value = some v ∧ B.Serves v
  | (_, .drop h) => s.value h ≠ none

/-- A call that libcrypto serves is one of the calculator. -/
theorem computes_step {e : BnLib × Op} (h : Represents s t) (he : Served s e)
    {l : List (Op × Answer ℕ)} (hl : Computes l t) :
    ∃ t', Computes (l ++ [(e.2, (step P s e).1.1)]) t' ∧ Represents (step P s e).2 t' := by
  obtain ⟨B, op⟩ := e
  cases op with
  | call c =>
    obtain ⟨hB, v, hv, hserves⟩ := he
    obtain ⟨r, hr, hanswer⟩ := eval_means (P := P) (o := s.objects) hB hserves
    have hresult : (called P s B c).result = (eval B s.objects P v).result := by
      rw [called, h.live, hv]
      rfl
    have hmap : (called P s B c).result.map BnRep.value = r.map some := by
      rw [hresult]
      exact hanswer
    have hhandles : (called P s B c).result.withHandles s.numbers.next = r.withHandles t.next := by
      rw [← Answer.withHandles_map BnRep.value, hmap, Answer.withHandles_map, h.next_eq]
    have hnumbers : (called P s B c).result.numbers.map BnRep.value = r.numbers.map some := by
      rw [← Answer.numbers_map, hmap, Answer.numbers_map]
    have hstuck : (called P s B c).result ≠ .stuck := by
      intro hstuck
      rw [hstuck] at hmap
      cases r with
      | stuck => exact hr.ne_stuck rfl
      | _ => cases hmap
    rw [h.value_eq] at hv
    refine ⟨t.insertAll r.numbers, ?_, ?_⟩
    · show Computes (l ++ [(.call c, (called P s B c).result.withHandles s.numbers.next)]) _
      rw [hhandles]
      exact hl.call hv hr
    · have hstep : (step P s (B, .call c)).2 =
          { s with
            numbers := s.numbers.insertAll (called P s B c).result.numbers
            objects := s.objects + 2 } := by
        simp only [step]
      rw [hstep]
      refine ⟨?_, h.live⟩
      rw [HandleTable.map_insertAll, HandleTable.map_insertAll, h.values, hnumbers]
  | drop k =>
    have hentry : t.entry k ≠ none := by
      rw [← h.value_eq]
      exact he
    obtain ⟨z, hz⟩ := Option.ne_none_iff_exists'.mp he
    obtain ⟨⟨o, z'⟩, hr, rfl⟩ := Option.bind_eq_some_iff.mp hz
    refine ⟨t.remove k, ?_, ?_⟩
    · have hanswer : (step P s (B, .drop k)).1.1 = .dropped := by simp only [step, hr]
      rw [hanswer]
      exact hl.drop hentry
    · have hstep : (step P s (B, .drop k)).2 = { s with numbers := s.numbers.remove k } := by
        simp only [step, hr]
      rw [hstep]
      refine ⟨?_, h.live⟩
      rw [HandleTable.map_remove, HandleTable.map_remove, h.values]

/-- As long as libcrypto serves the calls, in any order of calls and drops, the component is a
calculator: each answer is what its call means on the integers that its handles have had since they
were made, and the numbers that it makes get new handles. -/
theorem computes_run (P : Platform) {calls : List (BnLib × Op)}
    (h : Along (step P) Served {} calls) :
    ∃ t, Computes ((run (step P) {} calls).1.map fun p => (p.1.2, p.2.1)) t ∧
      Represents (run (step P) {} calls).2 t := by
  refine run_invariant_along (P := Served) (t := []) (s := {})
    (I := fun l s => ∃ t, Computes (l.map fun p => (p.1.2, p.2.1)) t ∧ Represents s t) ?_
    ⟨.empty, .start, rfl, rfl⟩ h
  rintro l s e ⟨t, hl, hs⟩ he
  rw [List.map_append]
  exact computes_step hs he hl

end

/-! ## What the calls hold -/

section

variable (P : Platform) (B : BnLib) (o : ℕ)

/-- The `BIGNUM`s of new numbers. -/
def madeBns (r : Answer BnRep) : Multiset Resource :=
  (r.numbers.map fun n => Resource.bn n.object : List Resource)

theorem leaves_newBn (z : ℤ) : Leaves madeBns (newBn B o z) :=
  Leaves.ite (fun _ => Leaves.pure rfl) fun _ _ => Triple.acquire_then (Triple.pure rfl)

theorem leaves_parsed (r : Except BnError ℤ) : Leaves madeBns (parsed o r) := by
  cases r with
  | error e => exact Leaves.pure rfl
  | ok z => exact fun _ => Triple.acquire_then (Triple.pure rfl)

theorem triple_deliver (r : Option ℤ) (m : Multiset Resource) :
    Triple ({.bn o} + m) (deliver B o r) fun a => madeBns a + m := by
  cases r with
  | none => exact Triple.release_then m rfl (Triple.pure (zero_add m).symm)
  | some z => exact Triple.pure rfl

/-- A context is freed before the number is looked at. -/
theorem triple_ctx {α : Type} {Q : α → Multiset Resource} {m : Multiset Resource}
    {p : Acct Resource α} (h : Triple ({.bn o} + m) p Q) :
    Triple m (do acquire .bnCtx; acquire (.bn o); release .bnCtx; p) Q :=
  Triple.acquire_then (Triple.acquire_then
    (Triple.release_then ({.bn o} + m) (add_left_comm _ _ _) h))

theorem leaves_uncheckedCtx (r : Bool × ℤ) : Leaves madeBns (uncheckedCtx B o r) :=
  Leaves.ite (fun _ => Leaves.pure rfl) fun _ _ => triple_ctx o (Triple.pure rfl)

theorem leaves_checkedMod (m : ℤ) (r : Option ℤ) : Leaves madeBns (checkedMod B o m r) :=
  Leaves.ite (fun _ => Leaves.pure rfl) fun _ =>
    Leaves.ite (fun _ => Leaves.pure rfl) fun _ k => triple_ctx o (triple_deliver B o r k)

theorem leaves_bnFromU64Acct (v : BitVec 64) : Leaves madeBns (bnFromU64Acct B o P v) := by
  refine Leaves.ite (fun _ => ?_) fun _ => leaves_newBn B o _
  refine Leaves.ite (fun _ => Leaves.pure rfl) fun _ m => ?_
  refine Triple.acquire_then (Triple.acquire_then ?_)
  exact Triple.release_then _ rfl (Triple.pure rfl)

theorem leaves_bnDiv (a b : ℤ) : Leaves madeBns (bnDiv B o a b) := by
  refine Leaves.ite (fun _ => Leaves.pure rfl) fun _ => ?_
  refine Leaves.ite (fun _ => Leaves.pure rfl) fun _ m => ?_
  refine Triple.acquire_then (Triple.acquireAll_then ?_)
  refine Triple.release_then (([.bn o, .bn (o + 1)] : List Resource) + m) (add_left_comm _ _ _) ?_
  cases B.div a b with
  | none => exact Triple.exit (congrArg _ (zero_add m).symm)
  | some qr => exact Triple.pure rfl

theorem leaves_bnModInverse (a m : ℤ) : Leaves madeBns (bnModInverse B o a m) := by
  refine Leaves.ite (fun _ => Leaves.pure rfl) fun _ k => ?_
  refine Triple.acquire_then ?_
  refine Triple.ite (fun _ => ?_) fun _ => Triple.ite (fun _ => ?_) fun _ => ?_
  · refine Triple.acquire_then ?_
    refine Triple.release_then ({.bn o} + k) (add_left_comm _ _ _) ?_
    cases B.modInverse a m with
    | none => exact Triple.release_then k rfl (Triple.pure (zero_add k).symm)
    | some z => exact Triple.pure rfl
  · refine Triple.acquire_then ?_
    exact Triple.release_then ({.bn o} + k) (add_left_comm _ _ _) (Triple.pure rfl)
  · exact Triple.release_then k rfl (Triple.pure (zero_add k).symm)

/-- A call leaves nothing but the `BIGNUM`s of the numbers that it makes. -/
theorem leaves_eval (v : Call ℤ) : Leaves madeBns (eval B o P v) := by
  cases v with
  | zero => exact leaves_newBn B o 0
  | fromU64 v => exact leaves_bnFromU64Acct P B o v
  | fromDec s => exact leaves_parsed o _
  | fromHex s => exact leaves_parsed o _
  | fromBeBytes bytes =>
    rw [eval, bnFromBeBytesAcct]
    cases bnFromBeBytes B.bin2bnNegative bytes with
    | none => exact Leaves.pure rfl
    | some z => exact leaves_newBn B o z
  | clone a => exact Leaves.ite (fun _ => Leaves.pure rfl) fun _ => leaves_parsed o _
  | add a b => exact leaves_newBn B o _
  | sub a b => exact leaves_newBn B o _
  | mul a b => exact leaves_uncheckedCtx B o _
  | div a b => exact leaves_bnDiv B o a b
  | modulo a m => exact leaves_checkedMod B o m _
  | modExp a e m => exact leaves_checkedMod B o m _
  | modInverse a m => exact leaves_bnModInverse B o a m
  | gcd a b => exact leaves_uncheckedCtx B o _
  | randomBelow a =>
    refine Leaves.ite (fun _ => Leaves.pure rfl) fun _ => ?_
    refine Leaves.ite (fun _ => Leaves.pure rfl) fun _ m => ?_
    exact Triple.acquire_then (triple_deliver B o _ m)
  | isPrime a =>
    refine Leaves.ite (fun _ => ?_) fun _ => Leaves.pure rfl
    exact Leaves.acquire_release Resource.bnCtx (Leaves.pure rfl)
  | generatePrime n safe =>
    refine Leaves.ite (fun _ => Leaves.pure rfl) fun _ => ?_
    refine Leaves.ite (fun _ => Leaves.pure rfl) fun _ m => ?_
    exact Triple.acquire_then (triple_deliver B o _ m)
  -- the others only read
  | _ => exact Leaves.pure rfl

end

/-! ## What is held over a run -/

section

variable {P : Platform} {s : State}

/-- The `BIGNUM` behind a handle is held. -/
theorem State.mem_owned {h : ℕ} {x : Resource} (hx : s.object? h = some x) : x ∈ s.owned := by
  obtain ⟨r, hr, rfl⟩ := Option.map_eq_some_iff.mp hx
  refine Multiset.mem_add.mpr (Or.inl ((HandleTable.mem_owned _).mpr ⟨h, r, hr, ?_⟩))
  exact Multiset.mem_singleton_self _

theorem State.owned_insertAll (ns : List BnRep) (objects : ℕ) :
    ({ s with numbers := s.numbers.insertAll ns, objects := objects } : State).owned =
      (ns.map fun n => Resource.bn n.object : List Resource) + s.owned := by
  have hsum : (ns.map fun n => ({Resource.bn n.object} : Multiset Resource)).sum =
      (ns.map fun n => Resource.bn n.object : List Resource) := by
    induction ns with
    | nil => rfl
    | cons n ns ih => rw [List.map_cons, List.sum_cons, ih, List.map_cons, coe_cons]
  rw [State.owned, HandleTable.owned_insertAll, hsum, State.owned, add_assoc]

theorem settle_step (P : Platform) (s : State) (e : BnLib × Op) :
    settle s.owned (step P s e).1.2 = some (step P s e).2.owned := by
  obtain ⟨B, op⟩ := e
  cases op with
  | call c =>
    have hleaves : Triple s.owned (called P s B c) fun r => madeBns r + s.owned := by
      refine Triple.ite (fun _ => Triple.pure (zero_add _).symm) fun _ => ?_
      cases c.mapM s.value with
      | none => exact Triple.pure (zero_add _).symm
      | some v =>
        refine Triple.useAll_then (fun x hx => ?_) (leaves_eval P B s.objects v _)
        obtain ⟨h, -, hx⟩ := List.mem_filterMap.mp hx
        exact s.mem_owned hx
    refine hleaves.trans (congrArg some ?_)
    simp only [step]
    split
    next hstuck => rw [hstuck]; exact zero_add _
    next => exact (State.owned_insertAll _ _).symm
  | drop h =>
    rcases hr : s.numbers.entry h with _ | ⟨o, _ | z⟩
    · simp only [step, hr, settle_nil]
    · simp only [step, hr, settle_nil, State.owned, HandleTable.owned_of_entry _ hr]
      rw [List.map_cons, coe_cons, add_assoc, add_left_comm]
    · simp only [step, hr, State.owned, HandleTable.owned_of_entry _ hr, add_assoc]
      exact Triple.release

/-- All new numbers have values. -/
def Valued (p : Acct Resource (Answer BnRep)) : Prop :=
  ∀ n ∈ p.result.numbers, n.value.isSome = true

theorem Valued.of_nil {p : Acct Resource (Answer BnRep)} (h : p.result.numbers = []) :
    Valued p := by
  intro n hn
  rw [h] at hn
  cases hn

theorem Valued.ite {c : Prop} [Decidable c] {p q : Acct Resource (Answer BnRep)}
    (hp : c → Valued p) (hq : ¬c → Valued q) : Valued (if c then p else q) := by
  split
  next h => exact hp h
  next h => exact hq h

theorem valued_made {p : Acct Resource (Answer BnRep)} {l : List (ℕ × ℤ)}
    (h : p.result = .made (l.map fun n => ⟨n.1, some n.2⟩)) : Valued p := by
  intro n hn
  rw [h] at hn
  obtain ⟨n', -, rfl⟩ := List.mem_map.mp hn
  rfl

theorem valued_newBn (B : BnLib) (o : ℕ) (z : ℤ) : Valued (newBn B o z) :=
  Valued.ite (fun _ => Valued.of_nil rfl) fun _ => valued_made (l := [(o, z)]) rfl

theorem valued_parsed (o : ℕ) (r : Except BnError ℤ) : Valued (parsed o r) := by
  cases r with
  | error e => exact Valued.of_nil rfl
  | ok z => exact valued_made (l := [(o, z)]) rfl

theorem valued_deliver (B : BnLib) (o : ℕ) (r : Option ℤ) : Valued (deliver B o r) := by
  cases r with
  | none => exact Valued.of_nil rfl
  | some z => exact valued_made (l := [(o, z)]) rfl

/-- Only where `BN_new` fails there is a resource that is NULL. -/
theorem valued_eval {B : BnLib} {o : ℕ} (h : B.bnNew.1 = true) (v : Call ℤ) :
    Valued (eval B o P v) := by
  have hctx : ∀ r, Valued (uncheckedCtx B o r) := fun r =>
    Valued.ite (fun _ => Valued.of_nil rfl) fun _ => valued_made (l := [(o, r.2)]) rfl
  have hmod : ∀ m r, Valued (checkedMod B o m r) := fun m r =>
    Valued.ite (fun _ => Valued.of_nil rfl) fun _ =>
      Valued.ite (fun _ => Valued.of_nil rfl) fun _ => valued_deliver B o r
  cases v with
  | zero => exact valued_newBn B o 0
  | fromU64 v =>
    refine Valued.ite (fun _ => ?_) fun _ => valued_newBn B o _
    refine Valued.ite (fun _ => Valued.of_nil rfl) fun _ => ?_
    exact valued_made (l := [(o, bnFromU64 P v)]) rfl
  | fromDec s => exact valued_parsed o _
  | fromHex s => exact valued_parsed o _
  | fromBeBytes bytes =>
    rw [eval, bnFromBeBytesAcct]
    cases bnFromBeBytes B.bin2bnNegative bytes with
    | none => exact Valued.of_nil rfl
    | some z => exact valued_newBn B o z
  | clone a => exact Valued.ite (fun _ => Valued.of_nil rfl) fun _ => valued_parsed o _
  | add a b => exact valued_newBn B o _
  | sub a b => exact valued_newBn B o _
  | mul a b => exact hctx _
  | div a b =>
    refine Valued.ite (fun _ => Valued.of_nil rfl) fun _ => ?_
    refine Valued.ite (fun _ => Valued.of_nil rfl) fun _ => ?_
    rcases hdiv : B.div a b with _ | ⟨q, r⟩
    · exact Valued.of_nil rfl
    · exact valued_made (l := [(o, q), (o + 1, r)]) rfl
  | modulo a m => exact hmod m _
  | modExp a e m => exact hmod m _
  | modInverse a m =>
    refine Valued.ite (fun _ => Valued.of_nil rfl) fun _ => ?_
    rw [h]
    cases B.modInverse a m with
    | none => exact Valued.of_nil rfl
    | some z => exact valued_made (l := [(o, z)]) rfl
  | gcd a b => exact hctx _
  | randomBelow a =>
    refine Valued.ite (fun _ => Valued.of_nil rfl) fun _ => ?_
    exact Valued.ite (fun _ => Valued.of_nil rfl) fun _ => valued_deliver B o _
  | isPrime a => exact Valued.ite (fun _ => Valued.of_nil rfl) fun _ => Valued.of_nil rfl
  | generatePrime n safe =>
    refine Valued.ite (fun _ => Valued.of_nil rfl) fun _ => ?_
    exact Valued.ite (fun _ => Valued.of_nil rfl) fun _ => valued_deliver B o _
  | _ => exact Valued.of_nil rfl

/-- All resources have values, and no `BIGNUM` is lost. -/
structure State.Whole (s : State) : Prop where
  lost : s.lost = []
  values : ∀ h r, s.numbers.entry h = some r → r.value.isSome = true

theorem State.Whole.step (h : s.Whole) {e : BnLib × Op} (he : e.1.bnNew.1 = true) :
    (step P s e).2.Whole := by
  obtain ⟨B, op⟩ := e
  cases op with
  | call c =>
    have hnew : Valued (called P s B c) := by
      refine Valued.ite (fun _ => Valued.of_nil rfl) fun _ => ?_
      cases c.mapM s.value with
      | none => exact Valued.of_nil rfl
      | some v => exact valued_eval he v
    simp only [Bignum.step]
    split
    · exact ⟨h.lost, h.values⟩
    · refine ⟨h.lost, fun k r hr => ?_⟩
      rcases HandleTable.mem_or_of_entry_insertAll hr with hr | hr
      · exact hnew r hr
      · exact h.values k r hr
  | drop k =>
    have hremove : ∀ j r, (s.numbers.remove k).entry j = some r → r.value.isSome = true := by
      intro j r hr
      by_cases hj : j = k
      · subst hj
        rw [HandleTable.entry_remove_self] at hr
        cases hr
      · rw [HandleTable.entry_remove_of_ne hj] at hr
        exact h.values j r hr
    rcases hr : s.numbers.entry k with _ | ⟨o, _ | z⟩
    · simp only [Bignum.step, hr]
      exact h
    · exact absurd (h.values k _ hr) Bool.false_ne_true
    · simp only [Bignum.step, hr]
      exact ⟨h.lost, hremove⟩

/-- In any order of calls and drops, whatever libcrypto does in each: no `BIGNUM` is used or freed
that is not there, and between two calls only the `BIGNUM`s of resources are held, and those that
`BN_mod_inverse` made for a resource that is NULL; these are none where `BN_new` gives a number
whenever it is asked for one. -/
theorem settle_numbers (P : Platform) (calls : List (BnLib × Op)) :
    let l := log Prod.snd (run (step P) {} calls).1
    let s := (run (step P) {} calls).2
    settle 0 l = some s.owned ∧
      (∀ o ∉ s.lost, (∀ h r, s.numbers.entry h = some r → r.object ≠ o) →
        l.count (.release (.bn o)) = l.count (.acquire (.bn o))) ∧
      l.count (.release .bnCtx) = l.count (.acquire .bnCtx) ∧
      ((∀ e ∈ calls, e.1.bnNew.1 = true) → s.lost = []) := by
  intro l s
  have hstep : ∀ (s : State) (e : BnLib × Op), True →
      settle s.owned (step P s e).1.2 = some (step P s e).2.owned ∧ True :=
    fun s e _ => ⟨settle_step P s e, trivial⟩
  have h : settle 0 l = some s.owned := (settle_run hstep (s := {}) trivial calls).1
  have hnone {x : Resource} (hx : x ∉ s.owned) : l.count (.release x) = l.count (.acquire x) := by
    have hcount := count_settle h x
    rw [Multiset.count_zero, Multiset.count_eq_zero.mpr hx] at hcount
    omega
  have howned {x : Resource} (hx : x ∈ s.owned) :
      (∃ k r, s.numbers.entry k = some r ∧ x = .bn r.object) ∨ ∃ o ∈ s.lost, x = .bn o := by
    rcases Multiset.mem_add.mp hx with hx | hx
    · obtain ⟨k, r, hr, hx⟩ := (HandleTable.mem_owned _).mp hx
      exact Or.inl ⟨k, r, hr, Multiset.mem_singleton.mp hx⟩
    · obtain ⟨o, ho, rfl⟩ := List.mem_map.mp (Multiset.mem_coe.mp hx)
      exact Or.inr ⟨o, ho, rfl⟩
  refine ⟨h, fun o hlost ho => hnone fun hmem => ?_, hnone fun hmem => ?_, fun hnew => ?_⟩
  · rcases howned hmem with ⟨k, r, hr, heq⟩ | ⟨o', ho', heq⟩
    · exact ho k r hr (Resource.bn.inj heq).symm
    · obtain rfl := Resource.bn.inj heq
      exact hlost ho'
  · rcases howned hmem with ⟨k, r, -, heq⟩ | ⟨o', -, heq⟩ <;> cases heq
  · have hwhole : s.Whole := run_invariant_along (I := fun _ (s : State) => s.Whole)
      (P := fun _ (e : BnLib × Op) => e.1.bnNew.1 = true) (t := [])
      (fun _ _ _ hs he => hs.step he) ⟨rfl, fun _ _ hr => by cases hr⟩
      (along_of_forall (fun e he _ => hnew e he) ({} : State))
    exact hwhole.lost

end

/-! ## A libcrypto that behaves so -/

/-- Exact arithmetic, with the least inverse and the least random number, but no primes to give. -/
def exactLib : BnLib where
  bnNew := (true, true)
  bnCtxNew := true
  memory := true
  fresh _ := 0
  bin2bnNegative _ _ := none
  add a b := (true, a + b)
  sub a b := (true, a - b)
  mul a b := (true, a * b)
  gcd a b := (true, Int.gcd a b)
  div a b := some (a.tdiv b, a.tmod b)
  mod a m := some (a.tmod m)
  modExp a e m := some (a ^ e.toNat % m)
  modInverse a m :=
    if 1 < m.natAbs then
      ((List.range m.natAbs).find? fun z : ℕ => decide (a * (z : ℤ) % m = 1 % m)).map
        fun z : ℕ => (z : ℤ)
    else none
  randRange a := if 0 < a then some 0 else none
  checkPrime a := if a.toNat.Prime then 1 else 0
  generatePrimeEx _ _ := none
  peekLastError := 0

theorem exactLib_documented : exactLib.Documented where
  add _ _ _ := rfl
  sub _ _ _ := rfl
  mul _ _ _ := rfl
  gcd _ _ _ := rfl
  div h := by
    obtain ⟨rfl, rfl⟩ := Prod.mk.inj (Option.some.inj h)
    exact ⟨rfl, rfl⟩
  mod h := (Option.some.inj h).symm
  modExp _ h := (Option.some.inj h).symm
  modInverse {a m r} h := by
    obtain ⟨hm, h⟩ := Option.ite_none_right_eq_some.mp h
    obtain ⟨z, hz, rfl⟩ := Option.map_eq_some_iff.mp h
    have hfound := List.find?_some hz
    have hinverse : a * z % m = 1 % m := of_decide_eq_true hfound
    have hlt := List.mem_range.mp (List.mem_of_find?_eq_some hz)
    -- what has an inverse is coprime to the modulus
    obtain ⟨k, hk⟩ := Int.ModEq.dvd hinverse
    have hcoprime : IsCoprime a m := ⟨z, k, by linarith⟩
    exact ⟨⟨Int.isCoprime_iff_gcd_eq_one.mp hcoprime, hm⟩, by omega, by omega, hinverse⟩
  randRange h := by
    obtain ⟨hpos, h⟩ := Option.ite_none_right_eq_some.mp h
    obtain rfl := Option.some.inj h
    exact ⟨le_rfl, hpos⟩
  checkPrime h := by
    show (if _ then (1 : ℤ) else 0) ≠ 0
    rw [if_pos h]
    decide
  checkPrime_cases a := by
    simp only [exactLib]
    split_ifs <;> simp
  generatePrimeEx h := by cases h

/-- From 17 and -5 come the quotient -3 and the remainder 2, and the inverse of 2 modulo 17, which
is 9; then 17 is dropped. -/
theorem computes_run_exactLib :
    ∃ t, Computes
        [(.call (.fromU64 17), .made [0]), (.call (.fromDec (ascii "-5")), .made [1]),
          (.call (.div 0 1), .made [2, 3]), (.call (.modInverse 3 0), .made [4]),
          (.drop 0, .dropped)] t ∧
      t.entry 0 = none ∧ t.entry 2 = some (-3) ∧ t.entry 3 = some 2 ∧ t.entry 4 = some 9 := by
  have hserved : Along (step .wasm32) Served {}
      [(exactLib, .call (.fromU64 17)), (exactLib, .call (.fromDec (ascii "-5"))),
        (exactLib, .call (.div 0 1)), (exactLib, .call (.modInverse 3 0)),
        (exactLib, .drop 0)] := by
    refine ⟨⟨exactLib_documented, _, rfl, rfl⟩, ⟨exactLib_documented, _, rfl, rfl⟩,
      ⟨exactLib_documented, _, rfl, fun _ => ⟨rfl, rfl, rfl, rfl⟩⟩,
      ⟨exactLib_documented, _, rfl, rfl, rfl, fun _ => by decide⟩,
      (by decide : State.value _ 0 ≠ none), trivial⟩
  obtain ⟨t, ht, hrep⟩ := computes_run .wasm32 hserved
  have hentry := hrep.value_eq
  refine ⟨t, ht, ?_, ?_, ?_, ?_⟩ <;> rw [← hentry] <;> decide

end OpenSSLWasm.Bignum
