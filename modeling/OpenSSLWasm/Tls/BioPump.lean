import OpenSSLWasm.Lib.Transcript
import OpenSSLWasm.Tls.Endpoint

/-!
# Pumping ciphertext between memory-BIO endpoints

The SSL object of a memory-BIO endpoint in `src/tls.c` reads from one memory BIO and writes to
another. The host carries what `bio-read` takes out of one endpoint to `bio-write` of its peer.

## Main definitions

* `MemBio`, `bioRead`, `bioWrite`: memory BIOs as queues without bounds;
* `BioProgram` and `BioSsl`: SSL objects that touch nothing but their two BIOs, whatever else
  they do;
* `memBioBioWrite`, `memBioBioRead`, `memBioBioPending`: the transport calls;
* `State` and `step`: a client, a server and the host between them, in any order;
* `emitted`, `taken`, `delivered`: the bytes of a run.

## Main results

* `Inv.step`: in every step the bytes move on in order;
* `pump_in_order`: what a side was given is what the other side emitted, up to what is still on
  its way.
-/

namespace OpenSSLWasm.Tls.Pump

open Function Transcript

/-! ## Memory BIOs -/

/-- `BIO_s_mem()`: the bytes that were written and not yet read. -/
abbrev MemBio := List Byte

/-- `BIO_read`: what it returns, the bytes, and what is left. -/
def bioRead (b : MemBio) (n : ℤ) : (ℤ × List Byte) × MemBio :=
  let out := b.take n.toNat
  -- an empty memory BIO reports -1, so that SSL will ask again
  ((if n < 0 then 0 else if b.isEmpty then -1 else out.length, out), b.drop n.toNat)

/-- `BIO_write`, which takes everything. -/
def bioWrite (b : MemBio) (bs : List Byte) : ℤ × MemBio := (bs.length, b ++ bs)

/-- `BIO_ctrl_pending`. -/
def bioCtrlPending (b : MemBio) : ℕ := b.length

/-- What a call on an SSL object does to the BIOs that `SSL_set_bio` gave it. It goes on according
to what it has read. -/
inductive BioProgram (α : Type)
  | ret (a : α)
  | read (n : ℤ) (next : ℤ × List Byte → BioProgram α)
  | write (bs : List Byte) (next : ℤ → BioProgram α)

namespace BioProgram

variable {α : Type}

/-- Perform the calls on the two BIOs. -/
def run : BioProgram α → MemBio → MemBio → α × MemBio × MemBio
  | ret a, inBio, outBio => (a, inBio, outBio)
  | read n next, inBio, outBio => (next (bioRead inBio n).1).run (bioRead inBio n).2 outBio
  | write bs next, inBio, outBio => (next (bioWrite outBio bs).1).run inBio (bioWrite outBio bs).2

/-- A call reads from the front of one BIO, and appends to the other. -/
theorem run_bios (p : BioProgram α) (inBio outBio : MemBio) :
    (p.run inBio outBio).2.1 <:+ inBio ∧ outBio <+: (p.run inBio outBio).2.2 := by
  induction p generalizing inBio outBio with
  | ret a => exact ⟨List.suffix_rfl, List.prefix_rfl⟩
  | read n next ih =>
    obtain ⟨hin, hout⟩ := ih (bioRead inBio n).1 (bioRead inBio n).2 outBio
    exact ⟨hin.trans (List.drop_suffix _ _), hout⟩
  | write bs next ih =>
    obtain ⟨hin, hout⟩ := ih (bioWrite outBio bs).1 inBio (bioWrite outBio bs).2
    exact ⟨hin, (List.prefix_append _ _).trans hout⟩

end BioProgram

/-! ## Endpoints -/

/-- An SSL object with its BIOs. -/
structure MemBioSsl (ς : Type) where
  state : ς
  inBio : MemBio := []
  outBio : MemBio := []

/-- libssl on memory BIOs, over a type of what else is in an SSL object. -/
structure BioSsl (ς : Type) where
  doHandshake : ς → BioProgram (Outcome ς)
  read : ς → ℤ → BioProgram (Outcome ς)
  write : ς → List Byte → ℤ → BioProgram (Outcome ς)
  shutdown : ς → BioProgram (Outcome ς)
  /-- See `LibSsl.reason`. -/
  reason : ς → ℤ → SslError

variable {ς : Type}

/-- Perform a call on an object. -/
def MemBioSsl.perform (s : MemBioSsl ς) (p : BioProgram (Outcome ς)) : Outcome (MemBioSsl ς) :=
  let (o, inBio, outBio) := p.run s.inBio s.outBio
  { ret := o.ret, out := o.out, errors := o.errors, ssl := { state := o.ssl, inBio, outBio } }

/-- The calls of libssl. The transport is in the BIOs, so that nothing else happens there. -/
def BioSsl.toLibSsl (B : BioSsl ς) : LibSsl (MemBioSsl ς) Empty where
  doHandshake s := s.perform (B.doHandshake s.state)
  read s n := s.perform (B.read s.state n)
  write s bs n := s.perform (B.write s.state bs n)
  shutdown s := s.perform (B.shutdown s.state)
  reason s n := B.reason s.state n
  transport _ := nofun
  ahead _ := []
  ended _ := none
  arrived _ := nofun

/-- Put ciphertext into the BIO that SSL reads from. -/
def memBioBioWrite (data : ListU8) (w : World (MemBioSsl ς)) : ℕ × World (MemBioSsl ς) :=
  if data.len = 0 then (0, w)
  else
    let (n, inBio) := bioWrite w.ssl.inBio (readBytes data.ptr (cInt data.len).toNat)
    (if n < 0 then 0 else n.toNat, { w with ssl := { w.ssl with inBio } })

/-- Take ciphertext out of the BIO that SSL writes to. -/
def memBioBioRead (max : BitVec 32) (w : World (MemBioSsl ς)) :
    List Byte × World (MemBioSsl ς) :=
  let pending := bioCtrlPending w.ssl.outBio
  let take := if pending < max.toNat then pending else max.toNat
  if take = 0 then ([], w)
  else
    let ((n, out), outBio) := bioRead w.ssl.outBio (cInt take)
    (out.take (if n < 0 then 0 else n).toNat, { w with ssl := { w.ssl with outBio } })

/-- The number of bytes that wait to be taken, as a `uint32_t`. -/
def memBioBioPending (w : World (MemBioSsl ς)) : ℕ := bioCtrlPending w.ssl.outBio % 2 ^ 32

def memBioClientBioWrite (data : ListU8) (w : World (MemBioSsl ς)) := memBioBioWrite data w
def memBioClientBioRead (max : BitVec 32) (w : World (MemBioSsl ς)) := memBioBioRead max w
def memBioClientBioPending (w : World (MemBioSsl ς)) := memBioBioPending w
def memBioServerBioWrite (data : ListU8) (w : World (MemBioSsl ς)) := memBioBioWrite data w
def memBioServerBioRead (max : BitVec 32) (w : World (MemBioSsl ς)) := memBioBioRead max w
def memBioServerBioPending (w : World (MemBioSsl ς)) := memBioBioPending w

/-! ## The host between two endpoints -/

inductive Side
  | client
  | server
  deriving DecidableEq

namespace Side

def other : Side → Side
  | client => server
  | server => client

@[simp] theorem other_other (side : Side) : side.other.other = side := by cases side <;> rfl

def kind : Side → Kind
  | client => .memBioClient
  | server => .memBioServer

def bioWrite : Side → ListU8 → World (MemBioSsl ς) → ℕ × World (MemBioSsl ς)
  | client => memBioClientBioWrite
  | server => memBioServerBioWrite

def bioRead : Side → BitVec 32 → World (MemBioSsl ς) → List Byte × World (MemBioSsl ς)
  | client => memBioClientBioRead
  | server => memBioServerBioRead

def bioPending : Side → World (MemBioSsl ς) → ℕ
  | client => memBioClientBioPending
  | server => memBioServerBioPending

variable (side : Side) (w : World (MemBioSsl ς))

theorem bioWrite_eq (data : ListU8) : side.bioWrite data w = memBioBioWrite data w := by
  cases side <;> rfl

theorem bioRead_eq (max : BitVec 32) : side.bioRead max w = memBioBioRead max w := by
  cases side <;> rfl

theorem bioPending_eq : side.bioPending w = memBioBioPending w := by cases side <;> rfl

end Side

/-- The two endpoints, and what the host has read from each and not yet written to the other. -/
structure State (ς : Type) where
  ends : Side → World (MemBioSsl ς)
  carried : Side → List (List Byte) := fun _ => []

/-- Two new endpoints. -/
def State.init (objects : Side → ς) : State ς := { ends side := { ssl := { state := objects side } } }

/-- Something that happens to one of the sides. -/
inductive Event
  /-- Any call that SSL answers, or what the other users of the error queue do to it, the other
  side among them. -/
  | call (side : Side) (a : Action Empty)
  | bioRead (side : Side) (max : BitVec 32)
  | bioPending (side : Side)
  /-- The host hands over a list. -/
  | bioWrite (side : Side) (data : ListU8)

/-- What can be seen of a step. -/
inductive Answer
  /-- SSL has written bytes to its BIO. -/
  | emits (bs : List Byte)
  | chunk (bs : List Byte)
  | pending (n : ℕ)
  | wrote (n : ℕ)
  /-- The host does not do this. -/
  | impossible
  deriving DecidableEq

section

variable (B : BioSsl ς) (T : ErrorStrings)

def step (s : State ς) : Event → Answer × State ς
  | .call side a =>
    let w := (Tls.step B.toLibSsl T side.kind (s.ends side) a).2
    (.emits (w.ssl.outBio.drop (s.ends side).ssl.outBio.length),
      { s with ends := update s.ends side w })
  | .bioRead side max =>
    let (bs, w) := side.bioRead max (s.ends side)
    (.chunk bs,
      { ends := update s.ends side w
        carried := update s.carried side (s.carried side ++ [bs]) })
  | .bioPending side => (.pending (side.bioPending (s.ends side)), s)
  | .bioWrite side data =>
    match s.carried side.other with
    | [] => (.impossible, s)
    | chunk :: rest =>
      -- whole and in order
      if data.bytes = chunk then
        let (n, w) := side.bioWrite data (s.ends side)
        (.wrote n,
          { ends := update s.ends side w, carried := update s.carried side.other rest })
      else (.impossible, s)

end

/-! ## The bytes of a run -/

section

variable (side : Side)

/-- What the SSL object of a side writes to its BIO in a step. -/
def emittedBy : Event × Answer → List Byte
  | (.call side' _, .emits bs) => if side' = side then bs else []
  | _ => []

/-- What is taken out of the BIO of a side in a step. -/
def takenBy : Event × Answer → List Byte
  | (.bioRead side' _, .chunk bs) => if side' = side then bs else []
  | _ => []

/-- What is appended to the BIO that a side reads from in a step. -/
def deliveredBy : Event × Answer → List Byte
  | (.bioWrite side' data, .wrote n) => if side' = side then data.bytes.take n else []
  | _ => []

def emitted (t : List (Event × Answer)) : List Byte := t.flatMap (emittedBy side)
def taken (t : List (Event × Answer)) : List Byte := t.flatMap (takenBy side)
def delivered (t : List (Event × Answer)) : List Byte := t.flatMap (deliveredBy side)

/-- What a side has emitted and was not yet taken. -/
def unread (t : List (Event × Answer)) : List Byte := (emitted side t).drop (taken side t).length

end

/-! ## What the calls do to the BIOs -/

/-- The bytes that `BIO_read` delivers, where a negative result counts as 0. -/
theorem take_bioRead (b : MemBio) (n : ℤ) :
    (bioRead b n).1.2.take (if (bioRead b n).1.1 < 0 then 0 else (bioRead b n).1.1).toNat =
      b.take n.toNat := by
  rcases lt_or_ge n 0 with hn | hn
  · -- a negative size reads nothing
    have hzero : n.toNat = 0 := by omega
    simp [bioRead, hzero]
  · rcases b with _ | ⟨x, xs⟩
    · simp [bioRead]
    · have hlen : ¬ (((x :: xs).take n.toNat).length : ℤ) < 0 := by omega
      simp only [bioRead, Int.not_lt.mpr hn, List.isEmpty_cons, Bool.false_eq_true, if_false, hlen,
        Int.toNat_natCast, List.take_length]

section

variable (w : World (MemBioSsl ς))

/-- How many bytes `bio-read` asks for. -/
def takes (max : BitVec 32) : ℕ := (cInt (min w.ssl.outBio.length max.toNat)).toNat

/-- What is read comes from the front, and the rest stays. -/
theorem memBioBioRead_eq (max : BitVec 32) :
    memBioBioRead max w = (w.ssl.outBio.take (takes w max),
      { w with ssl := { w.ssl with outBio := w.ssl.outBio.drop (takes w max) } }) := by
  have hmin : (if w.ssl.outBio.length < max.toNat then w.ssl.outBio.length else max.toNat) =
      min w.ssl.outBio.length max.toNat := by
    split_ifs <;> omega
  unfold memBioBioRead bioCtrlPending
  dsimp only
  rw [hmin]
  by_cases htake : min w.ssl.outBio.length max.toNat = 0
  · -- nothing is asked for
    have hzero : takes w max = 0 := by rw [takes, htake]; rfl
    rw [if_pos htake, hzero, List.take_zero, List.drop_zero]
  · rw [if_neg htake, take_bioRead]
    rfl

theorem takes_lt (max : BitVec 32) : takes w max < 2 ^ 31 := by
  have := BitVec.toInt_lt (x := BitVec.ofNat 32 (min w.ssl.outBio.length max.toNat))
  rw [takes, cInt]
  omega

/-- Lengths that are an `int` are what they are. -/
theorem takes_of_lt {max : BitVec 32} (h : w.ssl.outBio.length < 2 ^ 31) :
    takes w max = min w.ssl.outBio.length max.toNat := by
  rw [takes, cInt_toNat_of_lt (by omega)]

/-- The bytes whose number `bio-write` returns are appended. -/
theorem memBioBioWrite_eq (data : ListU8) :
    memBioBioWrite data w = ((cInt data.len).toNat,
      { w with ssl := { w.ssl with
        inBio := w.ssl.inBio ++ data.bytes.take (cInt data.len).toNat } }) := by
  have hle : (cInt data.len).toNat ≤ data.len := cInt_toNat_le data.len_lt
  have hn : ∀ n : ℕ, (if (n : ℤ) < 0 then 0 else (n : ℤ).toNat) = n := by
    intro n
    rw [if_neg (by omega), Int.toNat_natCast]
  unfold memBioBioWrite bioWrite
  dsimp only
  rw [hn, length_readBytes, ListU8.readBytes_ptr hle]
  by_cases hlen : data.len = 0
  · have hzero : (cInt data.len).toNat = 0 := by rw [hlen]; rfl
    rw [if_pos hlen, hzero, List.take_zero, List.append_nil]
  · rw [if_neg hlen]

end

/-- The other calls read from the front of one BIO, and append to the other. -/
theorem bios_step (B : BioSsl ς) (T : ErrorStrings) (k : Kind) (w : World (MemBioSsl ς))
    (a : Action Empty) :
    (Tls.step B.toLibSsl T k w a).2.ssl.inBio <:+ w.ssl.inBio ∧
      w.ssl.outBio <+: (Tls.step B.toLibSsl T k w a).2.ssl.outBio := by
  have hsame : w.ssl.inBio <:+ w.ssl.inBio ∧ w.ssl.outBio <+: w.ssl.outBio :=
    ⟨List.suffix_rfl, List.prefix_rfl⟩
  have hperform : ∀ p : BioProgram (Outcome ς), (w.ssl.perform p).ssl.inBio <:+ w.ssl.inBio ∧
      w.ssl.outBio <+: (w.ssl.perform p).ssl.outBio := fun p => p.run_bios _ _
  cases a with
  | handshake =>
    rw [show (Tls.step B.toLibSsl T k w .handshake).2.ssl = _ from methods_handshake_ssl k w]
    exact hperform _
  | read maxBytes =>
    rw [show (Tls.step B.toLibSsl T k w (.read maxBytes)).2.ssl = _ from
      (methods_read k w maxBytes).1]
    exact hperform _
  | write data =>
    rcases methods_write_ssl (S := B.toLibSsl) k w data with h | h
    · rw [show (Tls.step B.toLibSsl T k w (.write data)).2.ssl = _ from h]
      exact hsame
    · rw [show (Tls.step B.toLibSsl T k w (.write data)).2.ssl = _ from h]
      exact hperform _
  | shutdown =>
    rw [show (Tls.step B.toLibSsl T k w .shutdown).2.ssl = _ from methods_shutdown_ssl k w]
    exact hperform _
  | transport t => exact t.elim
  | otherFails errors => exact hsame
  | popError => exact hsame
  | clearErrors => exact hsame
  | drainErrors => exact hsame

/-! ## Bytes move on in order -/

/-- Where the bytes of a run are: with the host, or still in the BIO they were written to. -/
structure Inv (t : List (Event × Answer)) (s : State ς) : Prop where
  emitted : ∀ side, emitted side t = taken side t ++ (s.ends side).ssl.outBio
  taken : ∀ side, taken side t = delivered side.other t ++ (s.carried side).flatten
  /-- SSL has read the rest. -/
  delivered : ∀ side, (s.ends side).ssl.inBio <:+ delivered side t
  /-- A result of `BIO_read` has a length that is an `int`. -/
  short : ∀ side, ∀ chunk ∈ s.carried side, chunk.length < 2 ^ 31

theorem inv_init (objects : Side → ς) : Inv [] (State.init objects) where
  emitted _ := rfl
  taken _ := rfl
  delivered _ := List.suffix_rfl
  short _ := nofun

section

variable (side : Side) (t : List (Event × Answer)) (p : Event × Answer)

theorem emitted_concat : emitted side (t ++ [p]) = emitted side t ++ emittedBy side p := by
  rw [emitted, emitted, List.flatMap_append, List.flatMap_singleton]

theorem taken_concat : taken side (t ++ [p]) = taken side t ++ takenBy side p := by
  rw [taken, taken, List.flatMap_append, List.flatMap_singleton]

theorem delivered_concat : delivered side (t ++ [p]) = delivered side t ++ deliveredBy side p := by
  rw [delivered, delivered, List.flatMap_append, List.flatMap_singleton]

end

/-- What a step must do to each direction for the bytes to move on in order. -/
structure Moves (s : State ς) (e : Event) (r : Answer × State ς) : Prop where
  emits : ∀ side, (s.ends side).ssl.outBio ++ emittedBy side (e, r.1) =
    takenBy side (e, r.1) ++ (r.2.ends side).ssl.outBio
  carries : ∀ side, (s.carried side).flatten ++ takenBy side (e, r.1) =
    deliveredBy side.other (e, r.1) ++ (r.2.carried side).flatten
  delivers : ∀ side, (r.2.ends side).ssl.inBio <:+
    (s.ends side).ssl.inBio ++ deliveredBy side (e, r.1)
  short : ∀ side, ∀ chunk ∈ r.2.carried side, chunk.length < 2 ^ 31

theorem Inv.of_moves {t : List (Event × Answer)} {s : State ς} (h : Inv t s) {e : Event}
    {r : Answer × State ς} (hr : Moves s e r) : Inv (t ++ [(e, r.1)]) r.2 := by
  refine ⟨fun side => ?_, fun side => ?_, fun side => ?_, hr.short⟩
  · rw [emitted_concat, taken_concat, h.emitted, List.append_assoc, List.append_assoc, hr.emits]
  · rw [taken_concat, delivered_concat, h.taken, List.append_assoc, List.append_assoc, hr.carries]
  · obtain ⟨consumed, hconsumed⟩ := h.delivered side
    rw [delivered_concat, ← hconsumed, List.append_assoc]
    exact (hr.delivers side).trans (List.suffix_append _ _)

section

variable (B : BioSsl ς) (T : ErrorStrings) {t : List (Event × Answer)} {s : State ς}

/-- A step that moves no bytes. -/
theorem Moves.of_eq {e : Event} {a : Answer}
    (h : ∀ side, emittedBy side (e, a) = [] ∧ takenBy side (e, a) = [] ∧
      deliveredBy side (e, a) = [])
    (hs : ∀ side, ∀ chunk ∈ s.carried side, chunk.length < 2 ^ 31) : Moves s e (a, s) := by
  refine ⟨fun side => ?_, fun side => ?_, fun side => ?_, hs⟩
  · rw [(h side).1, (h side).2.1, List.append_nil, List.nil_append]
  · rw [(h side).2.1, (h side.other).2.2, List.append_nil, List.nil_append]
  · rw [(h side).2.2, List.append_nil]

theorem Inv.moves_call (h : Inv t s) (side : Side) (a : Action Empty) :
    Moves s (.call side a) (step B T s (.call side a)) := by
  obtain ⟨hin, bs, hbs⟩ := bios_step B T side.kind (s.ends side) a
  refine ⟨fun side' => ?_, fun side' => List.append_nil _, fun side' => ?_, h.short⟩
  · by_cases hside : side' = side
    · subst hside
      simp only [step, emittedBy, takenBy, if_pos, update_self, List.nil_append]
      rw [← hbs, List.drop_left]
    · simp only [step, emittedBy, takenBy, if_neg (Ne.symm hside), update_of_ne hside,
        List.append_nil, List.nil_append]
  · by_cases hside : side' = side
    · subst hside
      simpa only [step, deliveredBy, update_self, List.append_nil] using hin
    · simp only [step, deliveredBy, update_of_ne hside, List.append_nil, List.suffix_rfl]

theorem Inv.moves_bioRead (h : Inv t s) (side : Side) (max : BitVec 32) :
    Moves s (.bioRead side max) (step B T s (.bioRead side max)) := by
  have hread := memBioBioRead_eq (s.ends side) max
  refine ⟨fun side' => ?_, fun side' => ?_, fun side' => ?_, fun side' chunk hchunk => ?_⟩
  · by_cases hside : side' = side
    · subst hside
      simp only [step, emittedBy, takenBy, if_pos, update_self, List.append_nil, side'.bioRead_eq,
        hread, List.take_append_drop]
    · simp only [step, emittedBy, takenBy, if_neg (Ne.symm hside), update_of_ne hside,
        List.append_nil, List.nil_append]
  · by_cases hside : side' = side
    · subst hside
      simp only [step, takenBy, deliveredBy, if_pos, update_self, List.nil_append,
        List.flatten_append, List.flatten_singleton]
    · simp only [step, takenBy, deliveredBy, if_neg (Ne.symm hside), update_of_ne hside,
        List.append_nil, List.nil_append]
  · by_cases hside : side' = side
    · subst hside
      simp only [step, deliveredBy, update_self, side'.bioRead_eq, hread, List.append_nil,
        List.suffix_rfl]
    · simp only [step, deliveredBy, update_of_ne hside, List.append_nil, List.suffix_rfl]
  · by_cases hside : side' = side
    · subst hside
      simp only [step, update_self, side'.bioRead_eq, hread, List.mem_append,
        List.mem_singleton] at hchunk
      rcases hchunk with hchunk | rfl
      · exact h.short side' chunk hchunk
      · have := takes_lt (s.ends side') max
        rw [List.length_take]
        omega
    · simp only [step, update_of_ne hside] at hchunk
      exact h.short side' chunk hchunk

theorem Inv.moves_bioWrite (h : Inv t s) (side : Side) (data : ListU8) :
    Moves s (.bioWrite side data) (step B T s (.bioWrite side data)) := by
  rw [step]
  split
  next => exact Moves.of_eq (fun _ => ⟨rfl, rfl, rfl⟩) h.short
  next chunk rest hcarried =>
    split_ifs with hdata
    · -- the list is one that `bio-read` has returned, and is written in one go
      have hshort := h.short side.other chunk (hcarried ▸ List.mem_cons_self)
      have hlen : data.len < 2 ^ 31 := by rwa [← data.length_bytes, hdata]
      have hn : (cInt data.len).toNat = data.len := cInt_toNat_of_lt hlen
      have htake : data.bytes.take data.len = chunk := by
        rw [← data.length_bytes, List.take_length, hdata]
      simp only [side.bioWrite_eq, memBioBioWrite_eq, hn]
      refine ⟨fun side' => ?_, fun side' => ?_, fun side' => ?_, fun side' chunk' hchunk' => ?_⟩
      · by_cases hside : side' = side
        · subst hside
          simp only [emittedBy, takenBy, update_self, List.append_nil, List.nil_append]
        · simp only [emittedBy, takenBy, update_of_ne hside, List.append_nil, List.nil_append]
      · by_cases hside : side' = side.other
        · subst hside
          simp only [takenBy, deliveredBy, Side.other_other, if_pos, update_self, hcarried,
            List.flatten_cons, List.append_nil, htake]
        · have hother : side ≠ side'.other := by
            rintro rfl
            exact hside (Side.other_other side').symm
          simp only [takenBy, deliveredBy, if_neg hother, update_of_ne hside, List.append_nil,
            List.nil_append]
      · by_cases hside : side' = side
        · subst hside
          simp only [deliveredBy, if_pos, update_self, List.suffix_rfl]
        · simp only [deliveredBy, if_neg (Ne.symm hside), update_of_ne hside, List.append_nil,
            List.suffix_rfl]
      · by_cases hside : side' = side.other
        · subst hside
          simp only [update_self] at hchunk'
          exact h.short _ chunk' (hcarried ▸ List.mem_cons_of_mem _ hchunk')
        · simp only [update_of_ne hside] at hchunk'
          exact h.short side' chunk' hchunk'
    · exact Moves.of_eq (fun _ => ⟨rfl, rfl, rfl⟩) h.short

/-- In every step the bytes move on in order. -/
theorem Inv.step (h : Inv t s) (e : Event) :
    Inv (t ++ [(e, (step B T s e).1)]) (step B T s e).2 := by
  refine h.of_moves ?_
  cases e with
  | call side a => exact h.moves_call B T side a
  | bioRead side max => exact h.moves_bioRead B T side max
  | bioPending side => exact Moves.of_eq (fun _ => ⟨rfl, rfl, rfl⟩) h.short
  | bioWrite side data => exact h.moves_bioWrite B T side data

theorem Inv.unread_eq (h : Inv t s) (side : Side) : unread side t = (s.ends side).ssl.outBio := by
  rw [unread, h.emitted, List.drop_left]

/-- In any order of calls on a client and a server between which the host carries ciphertext, what
arrives at a side is the beginning of what the other side has emitted, and the rest is with the
host or can still be read; the transport calls say so. -/
theorem pump_in_order (objects : Side → ς) (events : List Event)
    (hshort : ∀ side,
      ((run (step B T) (.init objects) events).2.ends side).ssl.outBio.length < 2 ^ 31) :
    let t := (run (step B T) (.init objects) events).1
    let s := (run (step B T) (.init objects) events).2
    (∀ side, delivered side.other t <+: emitted side t ∧
      delivered side.other t ++ (s.carried side).flatten ++ unread side t = emitted side t ∧
      (s.ends side).ssl.inBio <:+ delivered side t) ∧
      ∀ side,
        (∀ max, let r := side.bioRead max (s.ends side)
          r.1.length ≤ max.toNat ∧ (r.1 = [] → max = 0 ∨ unread side t = []) ∧
            r.1 ++ r.2.ssl.outBio = unread side t) ∧
        side.bioPending (s.ends side) = (emitted side t).length - (taken side t).length ∧
        ∀ data, let r := side.bioWrite data (s.ends side)
          r.2.ssl.inBio = (s.ends side).ssl.inBio ++ data.bytes.take r.1 := by
  intro t s
  have h : Inv t s := run_invariant (I := Inv) (t := []) (fun t s e ht => ht.step B T e)
    (inv_init objects) events
  refine ⟨fun side => ?_, fun side => ⟨fun max => ?_, ?_, fun data => ?_⟩⟩
  · have htotal : delivered side.other t ++ (s.carried side).flatten ++ unread side t =
        emitted side t := by
      rw [h.unread_eq, h.emitted, h.taken]
    refine ⟨⟨(s.carried side).flatten ++ unread side t, ?_⟩, htotal, h.delivered side⟩
    rw [← htotal, List.append_assoc]
  · have htakes : takes (s.ends side) max = min (s.ends side).ssl.outBio.length max.toNat :=
      takes_of_lt (s.ends side) (hshort side)
    rw [side.bioRead_eq, memBioBioRead_eq, h.unread_eq]
    refine ⟨?_, fun hnil => ?_, List.take_append_drop _ _⟩
    · rw [List.length_take]
      omega
    · -- as many bytes as there are room for, or pending
      rcases List.take_eq_nil_iff.mp hnil with hzero | hnil
      · rw [htakes, Nat.min_eq_zero_iff] at hzero
        rcases hzero with hlen | hmax
        · exact Or.inr (List.eq_nil_of_length_eq_zero hlen)
        · exact Or.inl (BitVec.eq_of_toNat_eq hmax)
      · exact Or.inr hnil
  · have hlen : bioCtrlPending (s.ends side).ssl.outBio < 2 ^ 31 := hshort side
    rw [side.bioPending_eq, h.emitted, List.length_append, Nat.add_sub_cancel_left]
    exact Nat.mod_eq_of_lt (by omega)
  · rw [side.bioWrite_eq, memBioBioWrite_eq]

end

/-- SSL objects that send a hello of five bytes and wait for the peer's. -/
def helloSsl : BioSsl Bool where
  doHandshake sent :=
    let wait : BioProgram (Outcome Bool) := .read 5 fun r =>
      .ret { ret := if r.1 = 5 then 1 else -1, ssl := true }
    if sent then wait else .write [22, 3, 3, 0, 0] fun _ => wait
  read s n := .read n fun r => .ret { ret := r.1, out := r.2, ssl := s }
  write s bs n := .write bs fun _ => .ret { ret := n, ssl := s }
  shutdown s := .ret { ret := 1, ssl := s }
  reason _ _ := .wantRead

/-- The hello of the client is carried over in two parts, between which it emits more. -/
def helloRun : List Event :=
  [.call .client .handshake, .bioRead .client 3, .bioRead .server 16,
    .call .client (.write (.ofBytes [1, 2] (by decide) 0)), .bioRead .client 16,
    .bioWrite .server (.ofBytes [22, 3, 3] (by decide) 0), .call .server .handshake,
    .bioWrite .server (.ofBytes [0, 0, 1, 2] (by decide) 0), .bioPending .server]

theorem pump_in_order_helloRun :
    let t := (run (step helloSsl ⟨fun _ => none, fun _ => none⟩) (.init fun _ => false) helloRun).1
    delivered .server t = [22, 3, 3, 0, 0, 1, 2] ∧ delivered .server t <+: emitted .client t := by
  have hshort : ∀ side, ((run (step helloSsl ⟨fun _ => none, fun _ => none⟩) (.init fun _ => false)
      helloRun).2.ends side).ssl.outBio.length < 2 ^ 31 := by
    rintro (_ | _) <;> decide
  exact ⟨by decide, ((pump_in_order _ _ _ _ hshort).1 .client).1⟩

end OpenSSLWasm.Tls.Pump
