import Mathlib.Algebra.Group.Int.Defs
import Mathlib.Algebra.Group.Nat.Defs
import Mathlib.Data.List.Basic
import Mathlib.Data.List.TakeWhile
import Mathlib.Tactic.Common

/-!
# Values at the component boundary

The lists that the generated bindings hand to the C functions, and the C conversions that these
functions apply to their lengths. Pointers and `size_t` are 32 bits wide on wasm32.

## Main definitions

* `ListU8`: `openssl_list_u8_t`, a pointer and a length;
* `readBytes`: what a callee reads that is given the pointer alone;
* `cString`: what a callee takes for the string, given a copy that ends with a NUL;
* `cInt`: the conversion of a `size_t` to `int`;
* `memBuf`: what libcrypto reads from a list whose length was converted.
-/

namespace OpenSSLWasm

/-- A byte of memory. -/
abbrev Byte := BitVec 8

/-- A pointer, as the memory from there on. -/
abbrev Ptr := ℕ → Byte

/-- The first `n` bytes at a pointer. -/
def readBytes (ptr : Ptr) (n : ℕ) : List Byte := (List.range n).map ptr

@[simp] theorem length_readBytes (ptr : Ptr) (n : ℕ) : (readBytes ptr n).length = n := by
  simp [readBytes]

theorem readBytes_take (ptr : Ptr) {m n : ℕ} (h : m ≤ n) :
    (readBytes ptr n).take m = readBytes ptr m := by
  rw [readBytes, readBytes, ← List.map_take, List.take_range, Nat.min_eq_left h]

/-- Memory that starts with some bytes. -/
theorem readBytes_getD (bs : List Byte) (ptr : Ptr) :
    readBytes (fun i => bs.getD i (ptr i)) bs.length = bs := by
  refine List.ext_getElem (by simp) fun i hi _ => ?_
  have hi : i < bs.length := by simpa using hi
  simp [readBytes, hi]

/-- `openssl_list_u8_t`. The pointer says nothing about where the list ends: what lies past `len`
is other memory of the component. -/
structure ListU8 where
  ptr : Ptr
  len : ℕ
  len_lt : len < 2 ^ 32

namespace ListU8

/-- The bytes of the list itself. -/
def bytes (l : ListU8) : List Byte := readBytes l.ptr l.len

@[simp] theorem length_bytes (l : ListU8) : l.bytes.length = l.len := length_readBytes _ _

/-- A list of bytes in memory, with `beyond` everywhere past its end. -/
def ofBytes (bs : List Byte) (h : bs.length < 2 ^ 32) (beyond : Byte) : ListU8 where
  ptr i := bs.getD i beyond
  len := bs.length
  len_lt := h

@[simp] theorem bytes_ofBytes (bs : List Byte) (h : bs.length < 2 ^ 32) (beyond : Byte) :
    (ofBytes bs h beyond).bytes = bs :=
  readBytes_getD bs fun _ => beyond

/-- Reading no further than the end of a list gives bytes of the list. -/
theorem readBytes_ptr {l : ListU8} {n : ℕ} (h : n ≤ l.len) :
    readBytes l.ptr n = l.bytes.take n :=
  (readBytes_take l.ptr h).symm

/-- Reading as many bytes as the list has gives the list. -/
theorem readBytes_eq_bytes {l : ListU8} {n : ℕ} (h : l.len = n) : readBytes l.ptr n = l.bytes := by
  rw [bytes, h]

/-- The same list with other memory past its end. -/
def withBeyond (l : ListU8) (beyond : Ptr) : ListU8 where
  ptr i := if i < l.len then l.ptr i else beyond i
  len := l.len
  len_lt := l.len_lt

@[simp] theorem len_withBeyond (l : ListU8) (beyond : Ptr) : (l.withBeyond beyond).len = l.len :=
  rfl

@[simp] theorem bytes_withBeyond (l : ListU8) (beyond : Ptr) :
    (l.withBeyond beyond).bytes = l.bytes := by
  refine List.map_congr_left fun i hi => ?_
  rw [len_withBeyond, List.mem_range] at hi
  exact if_pos hi

/-- Reading no further than the end, memory past the end does not matter. -/
theorem readBytes_withBeyond (l : ListU8) (beyond : Ptr) {n : ℕ} (hn : n ≤ l.len) :
    readBytes (l.withBeyond beyond).ptr n = readBytes l.ptr n := by
  rw [readBytes_ptr hn, readBytes_ptr (l := l.withBeyond beyond) hn, bytes_withBeyond]

end ListU8

/-- The bytes of a literal of the source, in ASCII. -/
def ascii (s : String) : List Byte := s.toList.map fun c => BitVec.ofNat 8 c.toNat

/-- The bytes of a C string: up to the first NUL. -/
def cString (bs : List Byte) : List Byte := bs.takeWhile (· ≠ 0)

theorem cString_of_not_mem {bs : List Byte} (h : 0 ∉ bs) : cString bs = bs := by
  refine List.takeWhile_eq_self_iff.mpr fun b hb => ?_
  rw [decide_eq_true_eq]
  rintro rfl
  exact h hb

/-- A copy that ends with a NUL is the same string if there was none before. -/
theorem cString_eq_self_iff {bs : List Byte} : cString bs = bs ↔ 0 ∉ bs := by
  refine ⟨fun h h0 => ?_, cString_of_not_mem⟩
  have := List.takeWhile_eq_self_iff.mp h 0 h0
  simp at this

theorem length_cString_le (bs : List Byte) : (cString bs).length ≤ bs.length :=
  (List.takeWhile_sublist _).length_le

theorem nul_notMem_cString (bs : List Byte) : 0 ∉ cString bs := by
  intro h
  have := List.mem_takeWhile_imp h
  simp at this

/-- What follows a NUL is not part of the string. -/
theorem cString_append_nul_cons (bs rest : List Byte) :
    cString (bs ++ 0 :: rest) = cString bs := by
  induction bs with
  | nil => rfl
  | cons b bs ih =>
    rw [cString, List.cons_append, List.takeWhile_cons, ← cString, ih, cString, cString,
      List.takeWhile_cons]

theorem cString_append_of_mem {bs : List Byte} (h : 0 ∈ bs) (rest : List Byte) :
    cString (bs ++ rest) = cString bs := by
  obtain ⟨as, cs, rfl⟩ := List.append_of_mem h
  rw [List.append_assoc, List.cons_append, cString_append_nul_cons, cString_append_nul_cons]

theorem cString_append_of_not_mem {bs : List Byte} (h : 0 ∉ bs) (rest : List Byte) :
    cString (bs ++ rest) = bs ++ cString rest := by
  refine List.takeWhile_append_of_pos fun b hb => ?_
  rw [decide_eq_true_eq]
  rintro rfl
  exact h hb

/-- The NUL that ends a copy is not part of the string. -/
@[simp] theorem cString_append_nul (bs : List Byte) : cString (bs ++ [0]) = cString bs :=
  cString_append_nul_cons bs []

/-- The conversion of a `size_t` to `int`: lengths from `2 ^ 31` on become negative. -/
def cInt (n : ℕ) : ℤ := (BitVec.ofNat 32 n).toInt

theorem cInt_of_lt {n : ℕ} (h : n < 2 ^ 31) : cInt n = n := by
  rw [cInt, BitVec.toInt_ofNat', Int.bmod_def]
  omega

theorem cInt_toNat_of_lt {n : ℕ} (h : n < 2 ^ 31) : (cInt n).toNat = n := by
  rw [cInt_of_lt h, Int.toNat_natCast]

theorem cInt_neg {n : ℕ} (h : 2 ^ 31 ≤ n) (h' : n < 2 ^ 32) : cInt n < 0 := by
  rw [cInt, BitVec.toInt_ofNat', Int.bmod_def]
  omega

/-- A `size_t` converts to a nonnegative `int` if it is less than `2 ^ 31`. -/
theorem cInt_nonneg_iff {n : ℕ} (h : n < 2 ^ 32) : 0 ≤ cInt n ↔ n < 2 ^ 31 := by
  refine ⟨fun h0 => ?_, fun hn => ?_⟩
  · by_contra hn
    have := cInt_neg (Nat.not_lt.mp hn) h
    omega
  · rw [cInt_of_lt hn]
    omega

/-- What a check of a converted length says about the length. -/
theorem cInt_nonneg_and_iff {n : ℕ} (h : n < 2 ^ 32) (p : ℕ → Prop) :
    0 ≤ cInt n ∧ p (cInt n).toNat ↔ n < 2 ^ 31 ∧ p n := by
  rw [cInt_nonneg_iff h]
  refine and_congr_right fun hlt => ?_
  rw [cInt_toNat_of_lt hlt]

theorem cInt_toNat_le {n : ℕ} (h : n < 2 ^ 32) : (cInt n).toNat ≤ n := by
  rcases Nat.lt_or_ge n (2 ^ 31) with hn | hn
  · rw [cInt_of_lt hn]
    omega
  · have := cInt_neg hn h
    omega

/-- `strlen`, in a memory of `2 ^ 32` bytes. -/
def strlen (ptr : Ptr) : ℕ := ((List.range (2 ^ 32)).find? fun i => ptr i = 0).getD (2 ^ 32)

/-- What `BIO_new_mem_buf` reads from that is given the length of a list as an `int`: the list, or a
C string where the length is negative. -/
def memBuf (l : ListU8) : List Byte :=
  if 0 ≤ cInt l.len then readBytes l.ptr (cInt l.len).toNat else readBytes l.ptr (strlen l.ptr)

theorem memBuf_of_lt {l : ListU8} (h : l.len < 2 ^ 31) : memBuf l = l.bytes := by
  have hlen := cInt_of_lt h
  rw [memBuf, if_pos (by omega), hlen, Int.toNat_natCast, ListU8.bytes]

/-- Past a check that reports an error. -/
theorem ite_error_eq_ok {ε α : Type} {c : Prop} [Decidable c] {e : ε} {m : Except ε α} {a : α} :
    (if c then .error e else m) = .ok a ↔ ¬c ∧ m = .ok a := by
  by_cases hc : c <;> simp [hc]

/-- Past a step that may report an error. -/
theorem bind_eq_ok {ε α β : Type} {m : Except ε α} {f : α → Except ε β} {b : β} :
    (m >>= f) = .ok b ↔ ∃ a, m = .ok a ∧ f a = .ok b := by
  rcases m with e | a
  · simp [bind, Except.bind]
  · simp [bind, Except.bind]

/-- A result that may be missing. -/
def orError {ε α : Type} (o : Option α) (e : ε) : Except ε α :=
  match o with
  | none => .error e
  | some a => .ok a

theorem orError_eq_ok {ε α : Type} {o : Option α} {e : ε} {a : α} :
    orError o e = .ok a ↔ o = some a := by
  rcases o with _ | b <;> simp [orError]

end OpenSSLWasm
