import OpenSSLWasm.Lib.Ledger
import OpenSSLWasm.Provider.Export

/-!
# Reading a BIO to its end

The decoder in `src/decoder_wit.c` is given a BIO, and its provider a list of bytes. `bio_drain`
reads the BIO into a buffer that is doubled whenever less than 4096 bytes of it are free.

## Main definitions

* `CoreBio`: a BIO with the bytes that it delivers, and how many of them at a time;
* `growBuffer`: what is done at the top of the loop;
* `drainLoop` and `bioDrain`: the loop, and the function;
* `Run.Sound`: the reads are within the buffer, and the buffer is handed over with all bytes or, if
  memory runs out, released.

## Main results

* `Room.grow`: the buffer has room, unless it would have to be of `2 ^ 32` bytes;
* `Room.sound_drainLoop`: the loop ends, and is sound as long as that does not happen;
* `drains_iff`: this is so exactly if the bytes leave 4096 of `2 ^ 31` free, or memory runs out
  before.
-/

namespace OpenSSLWasm.Provider

open Slots Ledger

/-! ## BIOs -/

/-- A BIO. How many bytes a read delivers may depend on what it is asked for, and on how much is left.
At the end a read fails, or delivers no bytes. The bytes are fewer than `2 ^ 31`. -/
structure CoreBio where
  bytes : List Byte
  chunk : ℕ → ℕ → ℕ
  okAtEnd : Bool
  length_lt : bytes.length < 2 ^ 31

/-- `BIO_read_ex`, while the bytes `rest` are left: what it returns, and the bytes that it stores. A
chunk is of 1 byte at least, and never of more than was asked for. -/
def CoreBio.readEx (bio : CoreBio) (rest : List Byte) (asked : ℕ) : Bool × List Byte :=
  if rest = [] then (bio.okAtEnd, [])
  else (true, rest.take (min asked (max 1 (bio.chunk rest.length asked))))

/-! ## The loop -/

/-- A read: the offset in the buffer, what is asked for, and the size of the buffer. -/
structure BufferRead where
  offset : ℕ
  asked : ℕ
  cap : ℕ
  deriving DecidableEq, Repr

/-- What became of a call: the buffer that is returned, up to `out_len`, the reads, the sizes of the
allocations, and the ledger of the one buffer that there is at a time. -/
structure Run where
  result : Option (List Byte)
  reads : List BufferRead := []
  requests : List ℕ := []
  ledger : List (Entry Unit) := []

/-- `OPENSSL_realloc`: whether there is a new buffer, and what becomes of the old. -/
def opensslRealloc (mem : Memory) (size : ℕ) : Bool × List (Entry Unit) :=
  -- a size of 0 frees the buffer
  if size = 0 then (false, [.release ()])
  else (mem size, [.use ()])

/-- The arithmetic of `size_t`. -/
def sizeT (n : ℕ) : ℕ := n % 2 ^ 32

/-- The top of the loop: the buffer to read into, or none if it was given up. -/
def growBuffer (mem : Memory) (buf : GrowArray Byte) :
    Option (GrowArray Byte) × List ℕ × List (Entry Unit) :=
  if buf.cap < sizeT (buf.len + 4096) then
    let cap := sizeT (buf.cap * 2)
    let (ok, ledger) := opensslRealloc mem cap
    if ok then (some { buf with slots := realloc buf.slots cap, cap := cap }, [cap], ledger)
    else (none, [cap], ledger ++ [.release ()])
  else (some buf, [], [])

/-- One round of the loop, and what comes of the next. There is nothing if the read goes past the
buffer. -/
def drainRound (mem : Memory) (bio : CoreBio) (next : GrowArray Byte → List Byte → Option Run)
    (buf : GrowArray Byte) (rest : List Byte) : Option Run :=
  match growBuffer mem buf with
  | (none, requests, ledger) => some { result := none, requests := requests, ledger := ledger }
  | (some buf, requests, ledger) =>
    let asked := buf.cap - buf.len
    let read : BufferRead := { offset := buf.len, asked := asked, cap := buf.cap }
    let (ok, chunk) := bio.readEx rest asked
    if ok = false ∨ chunk.length = 0 then
      buf.elements.map fun bytes =>
        { result := some bytes, reads := [read], requests := requests,
          ledger := ledger ++ [.use ()] }
    else do
      let buf ← buf.putAll chunk
      let run ← next buf (rest.drop chunk.length)
      some { run with
        reads := read :: run.reads, requests := requests ++ run.requests,
        ledger := ledger ++ .use () :: run.ledger }

/-- The loop. There is nothing if it takes more than so many rounds. -/
def drainLoop (mem : Memory) (bio : CoreBio) : ℕ → GrowArray Byte → List Byte → Option Run
  | 0 => fun _ _ => none
  | rounds + 1 => drainRound mem bio (drainLoop mem bio rounds)

/-- `bio_drain`; `coreRead` tells whether `g_core_bio_read_ex` is there. A round ends the loop or
reads a byte, so there are as many rounds as the loop can take. -/
def bioDrain (coreRead : Bool) (mem : Memory) (bio : CoreBio) : Option Run :=
  if coreRead = false then some { result := none }
  else if mem 4096 then
    (drainLoop mem bio (bio.bytes.length + 1) (GrowArray.ofCap 4096) bio.bytes).map fun run =>
      { run with requests := 4096 :: run.requests, ledger := .acquire () :: run.ledger }
  else some { result := none, requests := [4096] }

/-- `wit_decoder_decode`, up to the call of the provider: the call, and the ledger of the buffer, which
is released after the call. -/
def witDecoderDecodeBio {κ : Type} (ctx : Option κ) (mem : Memory) (bio : CoreBio)
    (selection : BitVec 32) (dataCb : Bool) : Option (Option (BackendCall κ) × List (Entry Unit)) :=
  if ctx.isNone ∨ dataCb = false then some (none, [])
  else
    (bioDrain true mem bio).map fun run =>
      (witDecoderDecodeCall ctx run.result selection dataCb,
        if run.result.isSome then run.ledger ++ [.use (), .release ()] else run.ledger)

/-! ## What should come of it -/

/-- Before the read 4096 bytes are free, and it does not go past the buffer. -/
def BufferRead.InBounds (r : BufferRead) : Prop :=
  r.offset + 4096 ≤ r.cap ∧ r.offset + r.asked ≤ r.cap

/-- Of what is held, the buffer remains if all allocations succeed, and then it has all the bytes. If
one fails, nothing remains and nothing is returned. -/
structure Run.Sound (run : Run) (mem : Memory) (bytes : List Byte) (held : Multiset Unit) :
    Prop where
  reads : ∀ r ∈ run.reads, r.InBounds
  drained : (∀ size ∈ run.requests, mem size = true) →
    run.result = some bytes ∧ settle held run.ledger = some {()}
  released : (∃ size ∈ run.requests, mem size = false) →
    run.result = none ∧ settle held run.ledger = some 0

/-- The function returns, and what it does is sound. -/
def Drains (mem : Memory) (bio : CoreBio) : Prop :=
  ∃ run, bioDrain true mem bio = some run ∧ run.Sound mem bio.bytes 0

/-! ## One round -/

/-- The invariant of the loop: the buffer holds what is not left, its size is one of those from 4096
to `2 ^ 31`, and there was memory for that size and those before. -/
structure Room (mem : Memory) (bytes : List Byte) (buf : GrowArray Byte) (rest : List Byte) :
    Prop where
  holds : ∃ read, buf.Holds read ∧ read ++ rest = bytes
  cap : ∃ k < 20, buf.cap = 4096 * 2 ^ k ∧ ∀ i ≤ k, mem (4096 * 2 ^ i) = true

variable {mem : Memory} {bytes rest : List Byte} {buf : GrowArray Byte}

theorem Room.len_le (h : Room mem bytes buf rest) : buf.len + rest.length = bytes.length := by
  obtain ⟨read, hholds, hbytes⟩ := h.holds
  rw [hholds.len, ← hbytes, List.length_append]

theorem Room.cap_le (h : Room mem bytes buf rest) : buf.cap ≤ 2 ^ 31 := by
  obtain ⟨k, hk, hcap, -⟩ := h.cap
  have hpow : 2 ^ k ≤ 2 ^ 19 := Nat.pow_le_pow_right (by omega) (by omega)
  omega

/-- Twice a size before the last is the next size. -/
theorem sizeT_double {cap k : ℕ} (hcap : cap = 4096 * 2 ^ k) (hk : k + 1 < 20) :
    sizeT (cap * 2) = 4096 * 2 ^ (k + 1) := by
  have hpow : 2 ^ (k + 1) ≤ 2 ^ 19 := Nat.pow_le_pow_right (by omega) (by omega)
  have hdouble : cap * 2 = 4096 * 2 ^ (k + 1) := by
    rw [hcap, Nat.pow_succ, Nat.mul_assoc]
  rw [hdouble]
  exact Nat.mod_eq_of_lt (by omega)

/-- Twice the largest size wraps around. -/
theorem sizeT_double_last {cap : ℕ} (hcap : cap = 4096 * 2 ^ 19) : sizeT (cap * 2) = 0 := by
  rw [hcap]
  rfl

/-- A buffer of the next size has room for the next read. -/
theorem Room.realloc (h : Room mem bytes buf rest) {k : ℕ} (hcap : buf.cap = 4096 * 2 ^ k)
    (hk : k + 1 < 20) (hmem : ∀ i ≤ k + 1, mem (4096 * 2 ^ i) = true) :
    let cap := 4096 * 2 ^ (k + 1)
    Room mem bytes { buf with slots := Slots.realloc buf.slots cap, cap := cap } rest ∧
      buf.len + 4096 ≤ cap := by
  obtain ⟨read, hholds, hbytes⟩ := h.holds
  have hdouble : buf.cap * 2 = 4096 * 2 ^ (k + 1) := by
    rw [hcap, Nat.pow_succ, Nat.mul_assoc]
  have hbound := hholds.len_le_cap
  have hbase : 2 ^ 0 ≤ 2 ^ k := Nat.pow_le_pow_right (by omega) (Nat.zero_le k)
  have hle : buf.cap ≤ 4096 * 2 ^ (k + 1) := by omega
  exact ⟨⟨⟨read, hholds.realloc hle, hbytes⟩, k + 1, hk, rfl, hmem⟩, by omega⟩

/-- What the top of the loop does: there is room for the next read, or there is no memory of a size
that is asked for, or the size would have to be `2 ^ 32`, which is 0 in 32 bits. -/
theorem Room.grow (h : Room mem bytes buf rest) (hlt : bytes.length < 2 ^ 31) :
    (∃ buf' requests ledger, growBuffer mem buf = (some buf', requests, ledger) ∧
      Room mem bytes buf' rest ∧ buf'.len + 4096 ≤ buf'.cap ∧
      (∀ size ∈ requests, mem size = true) ∧ settle {()} ledger = some {()}) ∨
    (∃ size, growBuffer mem buf = (none, [size], [.use (), .release ()]) ∧ mem size = false ∧
      ∃ k < 20, size = 4096 * 2 ^ k) ∨
    (growBuffer mem buf = (none, [0], [.release (), .release ()]) ∧ 2 ^ 31 < buf.len + 4096 ∧
      ∀ k < 20, mem (4096 * 2 ^ k) = true) := by
  have hlen := h.len_le
  have hsum : sizeT (buf.len + 4096) = buf.len + 4096 := Nat.mod_eq_of_lt (by omega)
  obtain ⟨k, hk, hcap, hmem⟩ := h.cap
  rw [growBuffer, hsum]
  by_cases hfull : buf.cap < buf.len + 4096
  · simp only [if_pos hfull]
    by_cases hlast : k + 1 < 20
    · have hne : 4096 * 2 ^ (k + 1) ≠ 0 := Nat.mul_ne_zero (by omega) (Nat.two_pow_pos _).ne'
      simp only [sizeT_double hcap hlast, opensslRealloc, if_neg hne]
      cases hnew : mem (4096 * 2 ^ (k + 1)) with
      | false => exact Or.inr (Or.inl ⟨_, rfl, hnew, k + 1, hlast, rfl⟩)
      | true =>
        have hmem' : ∀ i ≤ k + 1, mem (4096 * 2 ^ i) = true := by
          intro i hi
          rcases Nat.lt_or_eq_of_le hi with hi | rfl
          · exact hmem i (Nat.le_of_lt_succ hi)
          · exact hnew
        obtain ⟨hroom, hfree⟩ := h.realloc hcap hlast hmem'
        refine Or.inl ⟨_, _, _, rfl, hroom, hfree, fun size hsize => ?_, rfl⟩
        rwa [List.mem_singleton.mp hsize]
    · obtain rfl : k = 19 := by omega
      refine Or.inr (Or.inr ⟨?_, by omega, fun i hi => hmem i (by omega)⟩)
      simp only [sizeT_double_last hcap, opensslRealloc]
      rfl
  · simp only [if_neg hfull]
    exact Or.inl ⟨buf, [], [], rfl, h, by omega, by simp, rfl⟩

/-- A read with room for it delivers some of what is left, and stores it within the buffer. -/
theorem Room.read (h : Room mem bytes buf rest) (hfree : buf.len + 4096 ≤ buf.cap) (hrest : rest ≠ [])
    (bio : CoreBio) :
    ∃ chunk buf', bio.readEx rest (buf.cap - buf.len) = (true, chunk) ∧ chunk.length ≠ 0 ∧
      buf.putAll chunk = some buf' ∧ Room mem bytes buf' (rest.drop chunk.length) ∧
      (rest.drop chunk.length).length < rest.length := by
  obtain ⟨read, hholds, hbytes⟩ := h.holds
  have hpos := List.length_pos_iff.mpr hrest
  obtain ⟨n, hn⟩ : ∃ n, min (buf.cap - buf.len)
      (max 1 (bio.chunk rest.length (buf.cap - buf.len))) = n := ⟨_, rfl⟩
  have hlen : (rest.take n).length = min n rest.length := List.length_take
  obtain ⟨buf', hput, hholds', hcap⟩ := hholds.putAll (show buf.len + (rest.take n).length ≤ buf.cap by omega)
  refine ⟨rest.take n, buf', ?_, by omega, hput, ⟨⟨_, hholds', ?_⟩, ?_⟩, ?_⟩
  · rw [CoreBio.readEx, if_neg hrest, hn]
  · -- what was read has moved from what is left to the buffer
    rw [List.append_assoc, ← hbytes]
    congr 1
    rw [hlen]
    rcases Nat.le_total n rest.length with hle | hle
    · rw [Nat.min_eq_left hle, List.take_append_drop]
    · rw [Nat.min_eq_right hle, List.take_of_length_le hle, List.drop_length, List.append_nil]
  · rw [hcap]
    exact h.cap
  · rw [List.length_drop]
    omega

section

variable {bio : CoreBio} {next : GrowArray Byte → List Byte → Option Run} {buf' buf'' : GrowArray Byte}
  {requests : List ℕ} {ledger : List (Entry Unit)}

/-- The round that finds the end. -/
theorem drainRound_of_end (hgrow : growBuffer mem buf = (some buf', requests, ledger))
    (hroom : Room mem bytes buf' []) :
    drainRound mem bio next buf [] =
      some { result := some bytes, reads := [⟨buf'.len, buf'.cap - buf'.len, buf'.cap⟩],
             requests := requests, ledger := ledger ++ [.use ()] } := by
  obtain ⟨read, hholds, hbytes⟩ := hroom.holds
  rw [List.append_nil] at hbytes
  unfold drainRound
  simp only [hgrow, CoreBio.readEx, if_true, List.length_nil, or_true,
    hholds.elements, Option.map_some, hbytes]

/-- A round that reads some bytes. -/
theorem drainRound_of_read (hgrow : growBuffer mem buf = (some buf', requests, ledger))
    {chunk : List Byte} (hread : bio.readEx rest (buf'.cap - buf'.len) = (true, chunk))
    (hchunk : chunk.length ≠ 0) (hput : buf'.putAll chunk = some buf'') :
    drainRound mem bio next buf rest =
      (next buf'' (rest.drop chunk.length)).map fun run =>
        { run with
          reads := ⟨buf'.len, buf'.cap - buf'.len, buf'.cap⟩ :: run.reads
          requests := requests ++ run.requests
          ledger := ledger ++ .use () :: run.ledger } := by
  have hcond : ¬(true = false ∨ chunk.length = 0) := by simpa using hchunk
  unfold drainRound
  simp only [hgrow, hread, if_neg hcond, hput, Option.bind_eq_bind, Option.bind_some]
  cases next buf'' (rest.drop chunk.length) <;> rfl

end

/-! ## The whole run -/

theorem settle_use_release : settle ({()} : Multiset Unit) [.use (), .release ()] = some 0 := by
  decide

/-- A sound run hands over everything, or releases everything. -/
theorem Run.Sound.outcome {run : Run} {held : Multiset Unit} (h : run.Sound mem bytes held) :
    (run.result = some bytes ∧ settle held run.ledger = some {()}) ∨
      (run.result = none ∧ settle held run.ledger = some 0) := by
  by_cases hall : ∀ size ∈ run.requests, mem size = true
  · exact Or.inl (h.drained hall)
  · push Not at hall
    obtain ⟨size, hsize, hfails⟩ := hall
    rw [ne_eq, Bool.not_eq_true] at hfails
    exact Or.inr (h.released ⟨size, hsize, hfails⟩)

/-- What comes before a sound run, if it does no more than grow the buffer and read into it. -/
theorem Run.Sound.before {run : Run} (h : run.Sound mem bytes {()}) {requests : List ℕ}
    {ledger : List (Entry Unit)} {r : BufferRead} (hmem : ∀ size ∈ requests, mem size = true)
    (hledger : settle {()} ledger = some {()}) (hread : r.InBounds) :
    Run.Sound
      { run with
        reads := r :: run.reads, requests := requests ++ run.requests,
        ledger := ledger ++ .use () :: run.ledger } mem bytes {()} := by
  have hsettle : settle {()} (ledger ++ .use () :: run.ledger) = settle {()} run.ledger := by
    rw [settle_append, hledger]
    rfl
  refine ⟨fun r' hr' => ?_, fun hall => ?_, ?_⟩
  · rcases List.mem_cons.mp hr' with rfl | hr'
    · exact hread
    · exact h.reads r' hr'
  · rw [hsettle]
    exact h.drained fun size hsize => hall size (List.mem_append_right _ hsize)
  · rintro ⟨size, hsize, hfails⟩
    rw [hsettle]
    rcases List.mem_append.mp hsize with hsize | hsize
    · rw [hmem size hsize] at hfails
      cases hfails
    · exact h.released ⟨size, hsize, hfails⟩

/-- The loop ends in fewer rounds than bytes are left, and is sound if the buffer never has to be of
`2 ^ 32` bytes. -/
theorem Room.sound_drainLoop (h : Room mem bytes buf rest) (bio : CoreBio)
    (hlt : bytes.length < 2 ^ 31)
    (hsafe : bytes.length + 4096 ≤ 2 ^ 31 ∨ ∃ k < 20, mem (4096 * 2 ^ k) = false) {rounds : ℕ}
    (hrounds : rest.length < rounds) :
    ∃ run, drainLoop mem bio rounds buf rest = some run ∧ run.Sound mem bytes {()} := by
  induction rounds generalizing buf rest with
  | zero => omega
  | succ rounds ih =>
    have hlen := h.len_le
    rw [drainLoop]
    rcases h.grow hlt with ⟨buf', requests, ledger, hgrow, hroom, hfree, hmem, hledger⟩ |
      ⟨size, hgrow, hfails, -⟩ | ⟨-, hlarge, hall⟩
    · have hinBounds : BufferRead.InBounds ⟨buf'.len, buf'.cap - buf'.len, buf'.cap⟩ :=
        ⟨hfree, by simp only; omega⟩
      rcases eq_or_ne rest [] with rfl | hrest
      · -- the end: everything is in the buffer
        refine ⟨_, drainRound_of_end hgrow hroom, ⟨?_, fun _ => ⟨rfl, ?_⟩, ?_⟩⟩
        · intro r hr
          rwa [List.mem_singleton.mp hr]
        · rw [settle_append, hledger]
          rfl
        · rintro ⟨size, hsize, hfails⟩
          rw [hmem size hsize] at hfails
          cases hfails
      · obtain ⟨chunk, buf'', hread, hchunk, hput, hroom', hdrop⟩ := hroom.read hfree hrest bio
        obtain ⟨run, hloop, hsound⟩ := ih hroom' (by omega)
        rw [drainRound_of_read hgrow hread hchunk hput, hloop]
        exact ⟨_, rfl, hsound.before hmem hledger hinBounds⟩
    · -- no memory
      unfold drainRound
      simp only [hgrow]
      refine ⟨_, rfl, ⟨by simp, fun hall => ?_, fun _ => ⟨rfl, settle_use_release⟩⟩⟩
      rw [hall size (List.mem_singleton_self size)] at hfails
      cases hfails
    · rcases hsafe with hsafe | ⟨k, hk, hfails⟩
      · omega
      · rw [hall k hk] at hfails
        cases hfails

/-- If the buffer would have to be of `2 ^ 32` bytes, and there is memory for all sizes before, it is
released twice. -/
theorem Room.released_twice (h : Room mem bytes buf rest) (bio : CoreBio)
    (hlt : bytes.length < 2 ^ 31) (hlarge : 2 ^ 31 < bytes.length + 4096)
    (hmem : ∀ k < 20, mem (4096 * 2 ^ k) = true) {rounds : ℕ} {run : Run}
    (hrun : drainLoop mem bio rounds buf rest = some run) :
    run.result = none ∧ settle {()} run.ledger = none := by
  induction rounds generalizing buf rest run with
  | zero => cases hrun
  | succ rounds ih =>
    rw [drainLoop] at hrun
    rcases h.grow hlt with ⟨buf', requests, ledger, hgrow, hroom, hfree, -, hledger⟩ |
      ⟨size, -, hfails, k, hk, rfl⟩ | ⟨hgrow, -, -⟩
    · by_cases hrest : rest = []
      · -- the buffer has room for all bytes and 4096 more
        have hlen := hroom.len_le
        have hcap := hroom.cap_le
        rw [hrest, List.length_nil] at hlen
        omega
      · obtain ⟨chunk, buf'', hread, hchunk, hput, hroom', -⟩ := hroom.read hfree hrest bio
        rw [drainRound_of_read hgrow hread hchunk hput] at hrun
        obtain ⟨run', hloop, rfl⟩ := Option.map_eq_some_iff.mp hrun
        obtain ⟨hresult, hsettle⟩ := ih hroom' hloop
        refine ⟨hresult, ?_⟩
        rw [settle_append, hledger]
        exact hsettle
    · rw [hmem k hk] at hfails
      cases hfails
    · unfold drainRound at hrun
      simp only [hgrow] at hrun
      obtain rfl := Option.some.inj hrun
      exact ⟨rfl, by decide⟩

/-- The first buffer. -/
theorem room_ofCap {mem : Memory} (hmem : mem 4096 = true) (bytes : List Byte) :
    Room mem bytes (GrowArray.ofCap 4096) bytes := by
  refine ⟨⟨[], GrowArray.holds_ofCap 4096, rfl⟩, 0, by omega, rfl, fun i hi => ?_⟩
  obtain rfl := Nat.le_zero.mp hi
  exact hmem

/-- The buffer is drained where it never has to be of `2 ^ 32` bytes. -/
theorem drains_of_safe {mem : Memory} {bio : CoreBio}
    (hsafe : bio.bytes.length + 4096 ≤ 2 ^ 31 ∨ ∃ k < 20, mem (4096 * 2 ^ k) = false) :
    Drains mem bio := by
  unfold Drains bioDrain
  cases hmem : mem 4096 with
  | false =>
    refine ⟨_, rfl, ⟨by simp, fun hall => ?_, fun _ => ⟨rfl, rfl⟩⟩⟩
    rw [hall 4096 (List.mem_singleton_self _)] at hmem
    cases hmem
  | true =>
    obtain ⟨run, hloop, hsound⟩ := (room_ofCap hmem bio.bytes).sound_drainLoop bio bio.length_lt
      hsafe (Nat.lt_succ_self _)
    rw [hloop]
    refine ⟨_, rfl, ⟨hsound.reads, fun hall => ?_, ?_⟩⟩
    · exact hsound.drained fun size hsize => hall size (List.mem_cons_of_mem _ hsize)
    · rintro ⟨size, hsize, hfails⟩
      rcases List.mem_cons.mp hsize with rfl | hsize
      · rw [hmem] at hfails
        cases hfails
      · exact hsound.released ⟨size, hsize, hfails⟩

/-- It is not where there is memory for all sizes up to `2 ^ 31`, and that is too small. -/
theorem not_drains_of_large {mem : Memory} {bio : CoreBio}
    (hlarge : 2 ^ 31 < bio.bytes.length + 4096) (hmem : ∀ k < 20, mem (4096 * 2 ^ k) = true) :
    ¬Drains mem bio := by
  rintro ⟨run, hrun, hsound⟩
  have hfirst : mem 4096 = true := hmem 0 (by omega)
  unfold bioDrain at hrun
  simp only [Bool.true_eq_false, if_false, hfirst, if_true, Option.map_eq_some_iff] at hrun
  obtain ⟨run', hloop, rfl⟩ := hrun
  obtain ⟨hresult, hsettle⟩ := (room_ofCap hfirst bio.bytes).released_twice bio bio.length_lt hlarge
    hmem hloop
  have hledger : settle 0 (.acquire () :: run'.ledger) = none := hsettle
  rcases hsound.outcome with ⟨hbytes, -⟩ | ⟨-, hreleased⟩
  · rw [hresult] at hbytes
    cases hbytes
  · rw [hledger] at hreleased
    cases hreleased

/-- Reading a BIO of less than `2 ^ 31` bytes is sound exactly if they leave 4096 of `2 ^ 31` free,
or if memory runs out at a size up to that. -/
theorem drains_iff (mem : Memory) (bio : CoreBio) :
    Drains mem bio ↔
      bio.bytes.length + 4096 ≤ 2 ^ 31 ∨ ∃ k < 20, mem (4096 * 2 ^ k) = false := by
  refine ⟨fun h => ?_, drains_of_safe⟩
  by_contra hnot
  rw [not_or, Nat.not_le] at hnot
  obtain ⟨hlarge, hmem⟩ := hnot
  refine not_drains_of_large hlarge (fun k hk => ?_) h
  simpa using fun hfails => hmem ⟨k, hk, hfails⟩

/-- Where the BIO is drained, the provider is given its bytes if it is called, and nothing is held in
the end. -/
theorem Drains.witDecoderDecodeBio {κ : Type} {mem : Memory} {bio : CoreBio} (h : Drains mem bio)
    (ctx : Option κ) (selection : BitVec 32) (dataCb : Bool) :
    ∃ call ledger, witDecoderDecodeBio ctx mem bio selection dataCb = some (call, ledger) ∧
      settle 0 ledger = some 0 ∧
      ∀ c ∈ call, ∃ key, c = .decode key bio.bytes (lowByte selection) := by
  obtain ⟨run, hrun, hsound⟩ := h
  unfold Provider.witDecoderDecodeBio
  by_cases hcond : ctx.isNone ∨ dataCb = false
  · rw [if_pos hcond]
    exact ⟨none, [], rfl, rfl, by simp⟩
  rw [if_neg hcond, hrun, Option.map_some]
  refine ⟨_, _, rfl, ?_⟩
  rcases hsound.outcome with ⟨hresult, hsettle⟩ | ⟨hresult, hsettle⟩
  · rw [hresult, Option.isSome_some, if_pos rfl, settle_append, hsettle]
    refine ⟨settle_use_release, fun c hc => ?_⟩
    obtain ⟨key, -, hc⟩ := Option.bind_eq_some_iff.mp hc
    obtain ⟨-, hc⟩ := Option.ite_none_right_eq_some.mp hc
    exact ⟨key, (Option.some.inj hc).symm⟩
  · rw [hresult, Option.isSome_none, if_neg Bool.false_ne_true]
    refine ⟨hsettle, fun c hc => ?_⟩
    obtain ⟨key, -, hc⟩ := Option.bind_eq_some_iff.mp hc
    obtain ⟨-, hc⟩ := Option.ite_none_right_eq_some.mp hc
    cases hc

/-- A BIO that delivers zeros, as many as it is asked for. -/
def zerosBio (n : ℕ) (h : n < 2 ^ 31) : CoreBio where
  bytes := List.replicate n 0
  chunk _ asked := asked
  okAtEnd := false
  length_lt := List.length_replicate.trans_lt h

theorem length_zerosBio (n : ℕ) (h : n < 2 ^ 31) : (zerosBio n h).bytes.length = n :=
  List.length_replicate

/-- With all the memory that it asks for, the function does not drain a BIO of `2 ^ 31 - 1` bytes. -/
theorem not_drains_large : ¬Drains (fun _ => true) (zerosBio (2 ^ 31 - 1) (by omega)) := by
  apply not_drains_of_large
  · rw [length_zerosBio]
    omega
  · exact fun _ _ => rfl

end OpenSSLWasm.Provider
