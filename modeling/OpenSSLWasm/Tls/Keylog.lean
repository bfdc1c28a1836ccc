import OpenSSLWasm.Lib.Cells
import OpenSSLWasm.Lib.Slots
import OpenSSLWasm.Lib.Transcript
import OpenSSLWasm.Support
import OpenSSLWasm.Tls.Endpoint

/-!
# Key logs

The log of key material in `src/tls.c`. OpenSSL calls `keylog_cb` for every connection of an
`SSL_CTX`; it finds the buffer of the connection through the ex-data of its SSL object. During
construction that is a buffer of its own, which is then copied into the record of the endpoint and
freed.

## Main definitions

* `KeylogBuf` and `keylogBufAppend`, `keylogBufDrainTo`, `keylogBufClear`: the buffer;
* `State` and `step`: endpoints on a heap, and everything that may happen to their logs, in any
  order;
* `drained`, `buffered`, `logged`: the lines of a connection in a run;
* `Allocated`: the memory that the calls of a run ask for is to be had.

## Main results

* `Inv.effect`: what one step does to the lines of every connection;
* `drained_append_buffered`: no line is lost, repeated, altered or given to another connection.
-/

namespace OpenSSLWasm.Tls.Keylog

open Function Slots Transcript

/-! ## The buffer -/

/-- What `keylog_cb` is given, less the NUL that ends it. -/
abbrev Line := { text : List Byte // 0 ∉ text }

/-- `keylog_buf`. An element is the memory that a pointer in `lines` has been given. -/
abbrev KeylogBuf := GrowArray (List Byte)

def keylogBufInit : KeylogBuf := .ofCap 0

/-- The next capacity in `keylog_buf_append`, before it is a `size_t`. -/
def keylogBufGrow (cap : ℕ) : ℕ := if cap ≠ 0 then cap * 2 else 16

/-- The end of `keylog_buf_append`: a copy of the line goes to the next slot. -/
def keylogBufPut (b : KeylogBuf) (line : Line) : Option KeylogBuf :=
  (store b.slots b.len (line.val ++ [0])).map fun slots => { b with slots, len := b.len + 1 }

/-- `keylog_buf_append`; fails where it writes behind its memory. `reallocs` says whether `realloc`
has the memory that it is asked for. -/
def keylogBufAppend (reallocs : Bool) (b : KeylogBuf) (line : Line) : Option KeylogBuf :=
  if b.len = b.cap then
    let nc := keylogBufGrow b.cap % 2 ^ 32
    if reallocs then
      -- a pointer has 4 bytes, and their number is a `size_t` as well
      keylogBufPut { b with slots := realloc b.slots (nc * 4 % 2 ^ 32 / 4), cap := nc } line
    else
      -- `if (!grown) return`: the line is lost
      some b
  else keylogBufPut b line

/-- `keylog_buf_clear`; fails where it frees what is no pointer. -/
def keylogBufClear (b : KeylogBuf) : Option KeylogBuf := b.elements.map fun _ => keylogBufInit

/-- `keylog_buf_drain_to`; fails where it reads or writes outside of its memory. -/
def keylogBufDrainTo (b : KeylogBuf) : Option (List (List Byte) × KeylogBuf) := do
  let lines ← b.elements
  -- room for one element if there are none
  let out := alloc ((if 0 < b.len then b.len * 8 else 8) % 2 ^ 32 / 8)
  let out ← storeAll out 0 (lines.map cString)
  let out ← load out b.len
  pure (out, keylogBufInit)

/-! ## Endpoints -/

/-- `SSL_CTX`: whether it has `keylog_cb` as a callback. -/
structure SslCtx where
  keylogCallback : Bool

/-- `SSL`, with its ex-data. -/
structure Ssl where
  ctx : SslCtx
  exData : Option ℕ

/-- How far a connection has come. -/
inductive Stage
  /-- It is under construction, with `pre_keylog`. -/
  | opening (preKeylog : Option ℕ)
  /-- It has its record, with the buffer at an address. -/
  | opened (rep : ℕ)
  /-- It has failed or was closed. -/
  | gone
  deriving DecidableEq

/-- The address of the buffer. -/
def Stage.buffer : Stage → Option ℕ
  | opening preKeylog => preKeylog
  | opened rep => some rep
  | gone => none

structure Conn where
  kind : Kind
  ssl : Ssl
  stage : Stage

structure ServerListenerRep where
  ctx : SslCtx
  keylogEnabled : Bool

/-- The buffers on the heap, with the listeners and connections. -/
structure State where
  heap : ℕ → Option KeylogBuf
  listeners : ℕ → Option ServerListenerRep
  conns : ℕ → Option Conn

/-- Nothing exists yet. -/
def State.init : State := ⟨fun _ => none, fun _ => none, fun _ => none⟩

/-- What a step answers. -/
inductive Answer
  | done
  | lines (out : List (List Byte))
  /-- It cannot happen in this state. -/
  | impossible
  /-- It accesses memory that it must not access. -/
  | fault
  deriving DecidableEq

namespace State

variable (s : State)

/-- `SSL_new`, and `pre_keylog` if the log is wanted. -/
def startConn (kind : Kind) (ctx : SslCtx) (keylog : Bool) (c pre : ℕ) : Answer × State :=
  if (s.conns c).isSome then (.impossible, s)
  else if keylog then
    -- `malloc` gives no address that is in use
    if (s.heap pre).isSome then (.impossible, s)
    else (.done, { s with
      heap := update s.heap pre (some keylogBufInit)
      conns := update s.conns c (some ⟨kind, ⟨ctx, some pre⟩, .opening (some pre)⟩) })
  else (.done, { s with conns := update s.conns c (some ⟨kind, ⟨ctx, none⟩, .opening none⟩) })

def clientConnect (keylog : Bool) := s.startConn .client ⟨keylog⟩ keylog
def memBioClientNew (keylog : Bool) := s.startConn .memBioClient ⟨keylog⟩ keylog
def memBioServerNew (keylog : Bool) := s.startConn .memBioServer ⟨keylog⟩ keylog

def serverListenerBind (l : ℕ) (keylog : Bool) : Answer × State :=
  if (s.listeners l).isSome then (.impossible, s)
  else (.done, { s with listeners := update s.listeners l (some ⟨⟨keylog⟩, keylog⟩) })

/-- The listener goes; its `SSL_CTX` stays as long as connections have it. -/
def serverListenerClose (l : ℕ) : Answer × State :=
  (.done, { s with listeners := update s.listeners l none })

def serverListenerAccept (l c pre : ℕ) : Answer × State :=
  match s.listeners l with
  | none => (.impossible, s)
  | some lr => s.startConn .server lr.ctx lr.keylogEnabled c pre

/-- The handshake fails, or a BIO is missing. -/
def failConn (c : ℕ) : Answer × State :=
  match s.conns c with
  | some conn@⟨_, _, .opening preKeylog⟩ =>
    let conns := update s.conns c (some { conn with stage := .gone })
    match preKeylog with
    | none => (.done, { s with conns })
    | some pre =>
      -- the buffer goes before the SSL object, which logs nothing more
      match (s.heap pre).bind keylogBufClear with
      | none => (.fault, s)
      | some _ => (.done, { s with heap := update s.heap pre none, conns })
  | _ => (.impossible, s)

/-- The record is made, at a new address. -/
def finishConn (c rep : ℕ) : Answer × State :=
  match s.conns c with
  | some ⟨kind, ssl, .opening preKeylog⟩ =>
    if (s.heap rep).isSome then (.impossible, s)
    else
      match preKeylog with
      | none => (.done, { s with
          heap := update s.heap rep (some keylogBufInit)
          conns := update s.conns c (some ⟨kind, ssl, .opened rep⟩) })
      | some pre =>
        -- the structure is copied, and its array stays where it is
        match s.heap pre with
        | none => (.fault, s)
        | some b => (.done, { s with
            heap := update (update s.heap rep (some b)) pre none
            conns := update s.conns c
              (some ⟨kind, { ssl with exData := some rep }, .opened rep⟩) })
  | _ => (.impossible, s)

/-- `keylog_cb`. -/
def keylogCb (reallocs : Bool) (ssl : Ssl) (line : Line) : Option State :=
  match ssl.exData with
  | none =>
    -- `if (!b || !line) return`
    some s
  | some p => do
    let b ← keylogBufAppend reallocs (← s.heap p) line
    pure { s with heap := update s.heap p (some b) }

/-- OpenSSL logs a line of a connection. -/
def logLine (c : ℕ) (line : Line) (reallocs : Bool) : Answer × State :=
  match s.conns c with
  | some conn =>
    if conn.stage ≠ .gone ∧ conn.ssl.ctx.keylogCallback then
      match s.keylogCb reallocs conn.ssl line with
      | none => (.fault, s)
      | some s => (.done, s)
    else (.impossible, s)
  | none => (.impossible, s)

/-- `drain-keylog` of the record of a client or a server. -/
def drainKeylog (rep : ℕ) : Answer × State :=
  match (s.heap rep).bind keylogBufDrainTo with
  | none => (.fault, s)
  | some (out, b) => (.lines out, { s with heap := update s.heap rep (some b) })

def clientDrainKeylog := s.drainKeylog
def serverDrainKeylog := s.drainKeylog

/-- `drain-keylog`, of which there is none for memory BIOs. -/
def connDrainKeylog (c : ℕ) : Answer × State :=
  match s.conns c with
  | some ⟨.client, _, .opened rep⟩ => s.clientDrainKeylog rep
  | some ⟨.server, _, .opened rep⟩ => s.serverDrainKeylog rep
  | _ => (.impossible, s)

/-- `close` or the destructor: the SSL object goes, and then the record. -/
def closeConn (c : ℕ) : Answer × State :=
  match s.conns c with
  | some conn@⟨_, _, .opened rep⟩ =>
    match (s.heap rep).bind keylogBufClear with
    | none => (.fault, s)
    | some _ => (.done, { s with
        heap := update s.heap rep none
        conns := update s.conns c (some { conn with stage := .gone }) })
  | _ => (.impossible, s)

end State

/-- Something that happens. The numbers of listeners and connections are names; an address is what
`malloc` gives. -/
inductive Event
  | bind (l : ℕ) (keylog : Bool)
  | closeListener (l : ℕ)
  | connect (c : ℕ) (keylog : Bool) (pre : ℕ)
  | accept (c l pre : ℕ)
  | memBioClientNew (c : ℕ) (keylog : Bool) (pre : ℕ)
  | memBioServerNew (c : ℕ) (keylog : Bool) (pre : ℕ)
  | fails (c : ℕ)
  | completes (c rep : ℕ)
  | logs (c : ℕ) (line : Line) (reallocs : Bool)
  | drainKeylog (c : ℕ)
  | close (c : ℕ)

def step (s : State) : Event → Answer × State
  | .bind l keylog => s.serverListenerBind l keylog
  | .closeListener l => s.serverListenerClose l
  | .connect c keylog pre => s.clientConnect keylog c pre
  | .accept c l pre => s.serverListenerAccept l c pre
  | .memBioClientNew c keylog pre => s.memBioClientNew keylog c pre
  | .memBioServerNew c keylog pre => s.memBioServerNew keylog c pre
  | .fails c => s.failConn c
  | .completes c rep => s.finishConn c rep
  | .logs c line reallocs => s.logLine c line reallocs
  | .drainKeylog c => s.connDrainKeylog c
  | .close c => s.closeConn c

/-! ## Lines -/

/-- What an answer delivers to a connection. -/
def drainedBy (c : ℕ) : Event × Answer → List (List Byte)
  | (.drainKeylog c', .lines out) => if c' = c then out else []
  | _ => []

/-- What OpenSSL has logged for a connection. -/
def loggedBy (c : ℕ) : Event × Answer → List (List Byte)
  | (.logs c' line _, .done) => if c' = c then [line.val] else []
  | _ => []

def drained (c : ℕ) (t : List (Event × Answer)) : List (List Byte) := t.flatMap (drainedBy c)

def logged (c : ℕ) (t : List (Event × Answer)) : List (List Byte) := t.flatMap (loggedBy c)

/-- The lines in a buffer. -/
def linesOf (b : KeylogBuf) : List (List Byte) := (b.elements.getD []).map cString

namespace State

/-- The connections with their buffers. -/
def cells (s : State) : Cells ℕ ℕ KeylogBuf where
  heap := s.heap
  addr c := (s.conns c).bind fun conn => conn.stage.buffer

/-- What is still in the buffer of a connection. -/
def buffered (s : State) (c : ℕ) : List (List Byte) :=
  ((s.cells.content c).map linesOf).getD []

/-- A connection has failed or was closed. -/
def Gone (s : State) (c : ℕ) : Prop := (s.conns c).map Conn.stage = some .gone

instance (s : State) : DecidablePred s.Gone :=
  fun c => inferInstanceAs (Decidable ((s.conns c).map Conn.stage = some .gone))

end State

/-- The connection that an event is about. -/
def Event.conn : Event → Option ℕ
  | bind _ _ | closeListener _ => none
  | connect c _ _ | accept c _ _ | memBioClientNew c _ _ | memBioServerNew c _ _ | fails c
  | completes c _ | logs c _ _ | drainKeylog c | close c => some c

/-- The arrays that an event asks for are to be had, and each is smaller than the memory that can
be addressed. -/
def Event.allocates (b : KeylogBuf) : Event → Bool
  | logs _ _ reallocs => b.len ≠ b.cap ∨ reallocs ∧ keylogBufGrow b.cap * 4 < 2 ^ 32
  | drainKeylog _ => b.len * 8 < 2 ^ 32
  | _ => true

/-- The allocations succeed that an event makes for the buffer of its connection. -/
def Allocates (s : State) (e : Event) : Prop :=
  ∀ c ∈ e.conn, ∀ b ∈ s.cells.content c, e.allocates b

instance (s : State) : DecidablePred (Allocates s) :=
  fun e => inferInstanceAs (Decidable (∀ c ∈ e.conn, ∀ b ∈ s.cells.content c, e.allocates b))

/-- All allocations of a run succeed. -/
def Allocated (events : List Event) : Prop := Along step Allocates .init events

instance (events : List Event) : Decidable (Allocated events) :=
  inferInstanceAs (Decidable (Along step Allocates .init events))

/-! ## What the buffer keeps -/

/-- A buffer keeps lines: each slot in use has a copy of one. -/
def Keeps (b : KeylogBuf) (ls : List Line) : Prop := b.Holds (ls.map fun line => line.val ++ [0])

theorem map_cString_copies (ls : List Line) :
    (ls.map fun line => line.val ++ [0]).map cString = ls.map Subtype.val := by
  rw [List.map_map]
  refine List.map_congr_left fun line _ => ?_
  exact (cString_append_nul _).trans (cString_of_not_mem line.property)

theorem keeps_init : Keeps keylogBufInit [] := GrowArray.holds_ofCap 0

/-- Growing doubles the capacity, as long as a `size_t` can count the bytes. -/
theorem keylogBufAppend_eq_push {b : KeylogBuf} {reallocs : Bool}
    (hfit : b.len = b.cap → reallocs = true ∧ keylogBufGrow b.cap * 4 < 2 ^ 32) (line : Line) :
    keylogBufAppend reallocs b line = b.push keylogBufGrow (line.val ++ [0]) := by
  rw [keylogBufAppend, GrowArray.push]
  by_cases hfull : b.len = b.cap
  · obtain ⟨rfl, hlt⟩ := hfit hfull
    have hnc : keylogBufGrow b.cap % 2 ^ 32 = keylogBufGrow b.cap := Nat.mod_eq_of_lt (by omega)
    have hbytes : keylogBufGrow b.cap * 4 % 2 ^ 32 / 4 = keylogBufGrow b.cap := by
      rw [Nat.mod_eq_of_lt hlt, Nat.mul_div_cancel _ (by decide)]
    simp only [if_pos hfull, if_true, hnc, hbytes, keylogBufPut]
  · simp only [if_neg hfull, keylogBufPut]

section

variable {b : KeylogBuf} {ls : List Line} (h : Keeps b ls)
include h

theorem Keeps.linesOf_eq : linesOf b = ls.map Subtype.val := by
  rw [linesOf, GrowArray.Holds.elements h, Option.getD_some, map_cString_copies]

/-- A line is added behind those that are there. -/
theorem Keeps.append {reallocs : Bool}
    (hfit : b.len = b.cap → reallocs = true ∧ keylogBufGrow b.cap * 4 < 2 ^ 32) (line : Line) :
    ∃ b', keylogBufAppend reallocs b line = some b' ∧ Keeps b' (ls ++ [line]) := by
  -- also an empty array gets larger
  have hgrow : b.cap < keylogBufGrow b.cap := by
    rw [keylogBufGrow]
    split_ifs <;> omega
  obtain ⟨b', hpush, hholds, -⟩ := GrowArray.push_of_holds h hgrow (line.val ++ [0])
  refine ⟨b', (keylogBufAppend_eq_push hfit line).trans hpush, ?_⟩
  rwa [Keeps, List.map_append, List.map_singleton]

theorem Keeps.clear : keylogBufClear b = some keylogBufInit := by
  rw [keylogBufClear, GrowArray.Holds.elements h, Option.map_some]

/-- Draining delivers the lines and leaves none. -/
theorem Keeps.drainTo (hfit : b.len * 8 < 2 ^ 32) :
    keylogBufDrainTo b = some (ls.map Subtype.val, keylogBufInit) := by
  have hlen : (ls.map Subtype.val).length = b.len := by
    rw [h.len, List.length_map, List.length_map]
  -- the list that is returned has room for all lines
  have hslots : (ls.map Subtype.val).length ≤
      (if 0 < b.len then b.len * 8 else 8) % 2 ^ 32 / 8 := by
    split_ifs <;> omega
  have hload := load_storeAll_alloc _ hslots
  rw [hlen] at hload
  obtain ⟨out, hstore, hload⟩ := Option.bind_eq_some_iff.mp hload
  simp only [keylogBufDrainTo, GrowArray.Holds.elements h, map_cString_copies, hstore, hload,
    Option.bind_eq_bind, Option.bind_some, Option.pure_def]

end

/-! ## The invariant -/

/-- A connection that logs has its buffer as the ex-data of its SSL object. -/
def Conn.Ready (conn : Conn) : Prop :=
  conn.stage ≠ .gone → conn.ssl.ctx.keylogCallback = true →
    ∃ p, conn.ssl.exData = some p ∧ conn.stage.buffer = some p

/-- What holds between the steps. -/
structure Inv (s : State) : Prop where
  separate : s.cells.Separate
  keeps : ∀ c, ∀ b ∈ s.cells.content c, ∃ ls, Keeps b ls
  listeners : ∀ l, ∀ lr ∈ s.listeners l, lr.ctx.keylogCallback = lr.keylogEnabled
  ready : ∀ c, ∀ conn ∈ s.conns c, conn.Ready

theorem inv_init : Inv .init where
  separate := ⟨nofun, nofun⟩
  keeps := nofun
  listeners := nofun
  ready := nofun

/-- What a step does: no line is delivered without having been in the buffer, and as long as the
connection exists, no line leaves the buffer without being delivered. -/
structure Effect (s : State) (e : Event) (r : Answer × State) : Prop where
  inv : Inv r.2
  ok : r.1 ≠ .fault
  gone : ∀ c, s.Gone c → r.2.Gone c
  lost : ∀ c, r.2.Gone c → drainedBy c (e, r.1) = []
  lines : ∀ c, ¬ r.2.Gone c →
    drainedBy c (e, r.1) ++ r.2.buffered c = s.buffered c ++ loggedBy c (e, r.1)

/-- A step that neither delivers nor logs a line of a connection. -/
def Quiet (c : ℕ) (p : Event × Answer) : Prop := drainedBy c p = [] ∧ loggedBy c p = []

theorem quiet_impossible (c : ℕ) (e : Event) : Quiet c (e, .impossible) := by
  cases e <;> exact ⟨rfl, rfl⟩

/-- Only the connection that an event is about gets something. -/
theorem quiet_of_ne {c : ℕ} {e : Event} (hne : e.conn ≠ some c) (a : Answer) : Quiet c (e, a) := by
  cases e with
  | logs c' line reallocs =>
    have hc : c' ≠ c := fun hc => hne (congrArg some hc)
    cases a <;> simp [Quiet, drainedBy, loggedBy, hc]
  | drainKeylog c' =>
    have hc : c' ≠ c := fun hc => hne (congrArg some hc)
    cases a <;> simp [Quiet, drainedBy, loggedBy, hc]
  | _ => exact ⟨rfl, rfl⟩

theorem Inv.effect_impossible {s : State} (h : Inv s) (e : Event) : Effect s e (.impossible, s) where
  inv := h
  ok := nofun
  gone c hc := hc
  lost c _ := (quiet_impossible c e).1
  lines c _ := by rw [(quiet_impossible c e).1, (quiet_impossible c e).2, List.nil_append,
    List.append_nil]

/-- Listeners that come and go leave the lines as they are. -/
theorem Inv.effect_listeners {s : State} (h : Inv s) {e : Event} (he : e.conn = none)
    {listeners : ℕ → Option ServerListenerRep}
    (hl : ∀ l, ∀ lr ∈ listeners l, lr.ctx.keylogCallback = lr.keylogEnabled) :
    Effect s e (.done, { s with listeners }) where
  inv := ⟨h.separate, h.keeps, hl, h.ready⟩
  ok := nofun
  gone c hc := hc
  lost c _ := (quiet_of_ne (by simp [he]) _).1
  lines c _ := by
    have hq : Quiet c (e, .done) := quiet_of_ne (by simp [he]) _
    rw [hq.1, hq.2, List.nil_append, List.append_nil]
    rfl

section

variable {s : State} {c : ℕ}

/-- One connection changes, and the heap. -/
theorem cells_update (s : State) (heap : ℕ → Option KeylogBuf) (c : ℕ) (conn : Conn) :
    State.cells ⟨heap, s.listeners, update s.conns c (some conn)⟩ =
      ⟨heap, update s.cells.addr c conn.stage.buffer⟩ := by
  have haddr : (fun c' => (update s.conns c (some conn) c').bind fun conn => conn.stage.buffer) =
      update s.cells.addr c conn.stage.buffer := by
    funext c'
    by_cases hne : c' = c
    · rw [hne, update_self, update_self, Option.bind_some]
    · rw [update_of_ne hne, update_of_ne hne, State.cells]
  rw [State.cells, haddr]

theorem addr_of_conns {o : Option Conn} (hc : s.conns c = o) :
    s.cells.addr c = o.bind fun conn => conn.stage.buffer := by
  subst hc
  rfl

theorem gone_of_conns {o : Option Conn} (hc : s.conns c = o) :
    s.Gone c ↔ o.map Conn.stage = some .gone := by
  rw [State.Gone, hc]

theorem buffered_of_addr_eq_none (hc : s.cells.addr c = none) : s.buffered c = [] := by
  rw [State.buffered, Cells.content_of_addr_eq_none hc, Option.map_none, Option.getD_none]

/-- The buffer of a connection can be read. -/
theorem Inv.exists_buffer (h : Inv s) {p : ℕ} (hc : s.cells.addr c = some p) :
    ∃ b ls, s.heap p = some b ∧ s.cells.content c = some b ∧ Keeps b ls ∧
      s.buffered c = ls.map Subtype.val := by
  obtain ⟨b, hb, hcontent⟩ := h.separate.exists_content hc
  obtain ⟨ls, hls⟩ := h.keeps c b hcontent
  refine ⟨b, ls, hb, hcontent, hls, ?_⟩
  rw [State.buffered, hcontent, Option.map_some, Option.getD_some, hls.linesOf_eq]

section

variable {heap : ℕ → Option KeylogBuf} {conn : Conn}

theorem gone_update_self :
    State.Gone ⟨heap, s.listeners, update s.conns c (some conn)⟩ c ↔ conn.stage = .gone := by
  rw [gone_of_conns (update_self _ _ _), Option.map_some, Option.some_inj]

theorem gone_update_of_ne {c' : ℕ} (hne : c' ≠ c) :
    State.Gone ⟨heap, s.listeners, update s.conns c (some conn)⟩ c' ↔ s.Gone c' :=
  gone_of_conns (update_of_ne hne _ _)

variable {o : Option (ℕ × KeylogBuf)}
  (hcells : ⟨heap, update s.cells.addr c conn.stage.buffer⟩ = s.cells.put c o)
  (ho : ∀ p ∈ o, (s.heap p.1 = none ∨ s.cells.addr c = some p.1) ∧ ∃ ls, Keeps p.2 ls)
include hcells ho

/-- Only one buffer changes. -/
theorem Inv.content_conn (h : Inv s) :
    (State.cells ⟨heap, s.listeners, update s.conns c (some conn)⟩).content =
      update s.cells.content c (o.map Prod.snd) := by
  rw [cells_update, hcells, Cells.content_put h.separate fun p hp => (ho p hp).1]

theorem Inv.set_conn (h : Inv s) (hready : conn.Ready) :
    Inv ⟨heap, s.listeners, update s.conns c (some conn)⟩ where
  separate := by
    rw [cells_update, hcells]
    exact h.separate.put fun p hp => (ho p hp).1
  keeps := by
    intro c' b hb
    rw [h.content_conn hcells ho] at hb
    by_cases hne : c' = c
    · rw [hne, update_self] at hb
      obtain ⟨p, hp, rfl⟩ := Option.map_eq_some_iff.mp hb
      exact (ho p hp).2
    · rw [update_of_ne hne] at hb
      exact h.keeps c' b hb
  listeners := h.listeners
  ready := by
    intro c' conn' hconn'
    simp only [update_apply] at hconn'
    split_ifs at hconn'
    · cases hconn'
      exact hready
    · exact h.ready c' conn' hconn'

/-- A step that concerns one connection, which it leaves with a buffer or without. -/
theorem Inv.effect_conn (h : Inv s) {e : Event} {a : Answer} (he : e.conn = some c)
    (hready : conn.Ready) (hok : a ≠ .fault) (hnew : ¬ s.Gone c)
    (hlost : conn.stage = .gone → drainedBy c (e, a) = [])
    (hlines : conn.stage ≠ .gone →
      drainedBy c (e, a) ++ (o.map fun p => linesOf p.2).getD [] =
        s.buffered c ++ loggedBy c (e, a)) :
    Effect s e (a, ⟨heap, s.listeners, update s.conns c (some conn)⟩) := by
  have hcontent := h.content_conn hcells ho
  -- the other connections are as they were
  have hquiet : ∀ c', c' ≠ c → Quiet c' (e, a) := fun c' hne =>
    quiet_of_ne (by rw [he]; exact fun hc => hne (Option.some.inj hc).symm) _
  refine ⟨h.set_conn hcells ho hready, hok, fun c' hc' => ?_, fun c' hc' => ?_, fun c' hc' => ?_⟩
  · by_cases hne : c' = c
    · exact absurd (hne ▸ hc') hnew
    · exact (gone_update_of_ne hne).mpr hc'
  · by_cases hne : c' = c
    · subst hne
      exact hlost (gone_update_self.mp hc')
    · exact (hquiet c' hne).1
  · by_cases hne : c' = c
    · subst hne
      rw [State.buffered, hcontent, update_self, Option.map_map]
      exact hlines (mt gone_update_self.mpr hc')
    · rw [(hquiet c' hne).1, (hquiet c' hne).2, List.nil_append, List.append_nil, State.buffered,
        hcontent, update_of_ne hne, State.buffered]

end

/-! ## The steps -/

theorem Inv.effect_startConn (h : Inv s) {e : Event} (he : e.conn = some c)
    (hq : Quiet c (e, .done)) (kind : Kind) {ctx : SslCtx} {keylog : Bool}
    (hctx : ctx.keylogCallback = keylog) (pre : ℕ) :
    Effect s e (s.startConn kind ctx keylog c pre) := by
  rw [State.startConn]
  split_ifs with hc hk hp
  · exact h.effect_impossible e
  · exact h.effect_impossible e
  · -- with a new buffer
    have hnone : s.conns c = none := Option.not_isSome_iff_eq_none.mp hc
    have haddr : s.cells.addr c = none := addr_of_conns hnone
    refine h.effect_conn (o := some (pre, keylogBufInit)) (Cells.put_of_none haddr _).symm ?_ he
      ?_ nofun (mt (gone_of_conns hnone).mp nofun) nofun ?_
    · rintro p ⟨⟩
      exact ⟨.inl (Option.not_isSome_iff_eq_none.mp hp), [], keeps_init⟩
    · rintro - -
      exact ⟨pre, rfl, rfl⟩
    · intro _
      rw [hq.1, hq.2, buffered_of_addr_eq_none haddr, Option.map_some, Option.getD_some,
        keeps_init.linesOf_eq]
      rfl
  · -- without one, and without the callback
    have hnone : s.conns c = none := Option.not_isSome_iff_eq_none.mp hc
    have haddr : s.cells.addr c = none := addr_of_conns hnone
    refine h.effect_conn (o := none) (Cells.put_none_of_none haddr).symm nofun he ?_ nofun
      (mt (gone_of_conns hnone).mp nofun) nofun ?_
    · rintro - hcallback
      exact absurd (hctx.symm.trans hcallback) hk
    · intro _
      rw [hq.1, hq.2, buffered_of_addr_eq_none haddr]
      rfl

/-- The buffer goes, with what is in it. -/
theorem Inv.effect_free (h : Inv s) {e : Event} (he : e.conn = some c)
    (hq : Quiet c (e, .done)) {conn : Conn} (hc : s.conns c = some conn) {p : ℕ}
    (hp : conn.stage.buffer = some p) :
    (s.heap p).bind keylogBufClear = some keylogBufInit ∧
      Effect s e (.done, { s with
        heap := update s.heap p none
        conns := update s.conns c (some { conn with stage := .gone }) }) := by
  have haddr : s.cells.addr c = some p := (addr_of_conns hc).trans hp
  have hnew : ¬ s.Gone c := by
    rw [gone_of_conns hc, Option.map_some, Option.some_inj]
    intro hgone
    rw [hgone] at hp
    cases hp
  obtain ⟨b, ls, hb, -, hls, -⟩ := h.exists_buffer haddr
  refine ⟨by rw [hb, Option.bind_some, hls.clear], ?_⟩
  exact h.effect_conn (o := none) (Cells.put_free haddr).symm nofun he
    (fun hstage => absurd rfl hstage) nofun hnew (fun _ => hq.1) fun hstage => absurd rfl hstage

theorem Inv.effect_failConn (h : Inv s) {e : Event} (he : e.conn = some c)
    (hq : Quiet c (e, .done)) : Effect s e (s.failConn c) := by
  rw [State.failConn]
  split
  next kind ssl preKeylog hc =>
    rcases preKeylog with _ | pre
    · have haddr : s.cells.addr c = none := addr_of_conns hc
      exact h.effect_conn (o := none) (Cells.put_none_of_none haddr).symm nofun he
        (fun hstage => absurd rfl hstage) nofun (mt (gone_of_conns hc).mp nofun) (fun _ => hq.1)
        fun hstage => absurd rfl hstage
    · obtain ⟨hclear, heffect⟩ := h.effect_free he hq hc rfl
      simp only [hclear]
      exact heffect
  next => exact h.effect_impossible e

theorem Inv.effect_closeConn (h : Inv s) {e : Event} (he : e.conn = some c)
    (hq : Quiet c (e, .done)) : Effect s e (s.closeConn c) := by
  rw [State.closeConn]
  split
  next kind ssl rep hc =>
    obtain ⟨hclear, heffect⟩ := h.effect_free he hq hc rfl
    simp only [hclear]
    exact heffect
  next => exact h.effect_impossible e

/-- The lines move with the buffer. -/
theorem Inv.effect_finishConn (h : Inv s) {e : Event} (he : e.conn = some c)
    (hq : Quiet c (e, .done)) (rep : ℕ) : Effect s e (s.finishConn c rep) := by
  rw [State.finishConn]
  split
  next kind ssl preKeylog hc =>
    split_ifs with hrep
    · exact h.effect_impossible e
    · have hfree : s.heap rep = none := Option.not_isSome_iff_eq_none.mp hrep
      have hnew : ¬ s.Gone c := mt (gone_of_conns hc).mp nofun
      have hready := h.ready c _ hc nofun
      rcases preKeylog with _ | pre
      · have haddr : s.cells.addr c = none := addr_of_conns hc
        refine h.effect_conn (o := some (rep, keylogBufInit)) (Cells.put_of_none haddr _).symm ?_
          he ?_ nofun hnew nofun ?_
        · rintro p ⟨⟩
          exact ⟨.inl hfree, [], keeps_init⟩
        · -- a connection without a buffer has no callback
          intro _ hcallback
          obtain ⟨p, -, hp⟩ := hready hcallback
          cases hp
        · intro _
          rw [hq.1, hq.2, buffered_of_addr_eq_none haddr, Option.map_some, Option.getD_some,
            keeps_init.linesOf_eq]
          rfl
      · have haddr : s.cells.addr c = some pre := addr_of_conns hc
        obtain ⟨b, ls, hb, -, hls, hbuffered⟩ := h.exists_buffer haddr
        -- the record is made while the temporary buffer is still there
        have hne : rep ≠ pre := by
          rintro rfl
          rw [hfree] at hb
          cases hb
        simp only [hb]
        refine h.effect_conn (o := some (rep, b)) (Cells.put_move haddr hne b).symm ?_ he ?_
          nofun hnew nofun ?_
        · rintro p ⟨⟩
          exact ⟨.inl hfree, ls, hls⟩
        · rintro - -
          exact ⟨rep, rfl, rfl⟩
        · intro _
          rw [hq.1, hq.2, hbuffered, Option.map_some, Option.getD_some, hls.linesOf_eq,
            List.nil_append, List.append_nil]
  next => exact h.effect_impossible e

/-- A step that writes to the buffer of a connection. -/
theorem Inv.effect_write (h : Inv s) {e : Event} {a : Answer} (he : e.conn = some c) {conn : Conn}
    (hc : s.conns c = some conn) {p : ℕ} (hp : conn.stage.buffer = some p) {b : KeylogBuf}
    {ls : List Line} (hls : Keeps b ls) (hok : a ≠ .fault)
    (hlines : drainedBy c (e, a) ++ ls.map Subtype.val = s.buffered c ++ loggedBy c (e, a)) :
    Effect s e (a, { s with heap := update s.heap p (some b) }) := by
  have haddr : s.cells.addr c = some p := (addr_of_conns hc).trans hp
  have hstage : conn.stage ≠ .gone := by
    intro hgone
    rw [hgone] at hp
    cases hp
  have hnew : ¬ s.Gone c := by
    rw [gone_of_conns hc, Option.map_some, Option.some_inj]
    exact hstage
  have hsame : update s.conns c (some conn) = s.conns := by rw [← hc, update_eq_self]
  have hcells : ⟨update s.heap p (some b), update s.cells.addr c conn.stage.buffer⟩ =
      s.cells.put c (some (p, b)) := by
    rw [Cells.put_same haddr, hp, ← haddr, update_eq_self, State.cells]
  have heffect := h.effect_conn (a := a) hcells ?_ he (h.ready c conn hc) hok hnew
    (fun hgone => absurd hgone hstage) ?_
  · rwa [hsame] at heffect
  · rintro q ⟨⟩
    exact ⟨.inr haddr, ls, hls⟩
  · intro _
    rw [Option.map_some, Option.getD_some, hls.linesOf_eq]
    exact hlines

/-- The callback finds the buffer of the connection, and adds the line there. -/
theorem Inv.effect_logLine (h : Inv s) {line : Line} {reallocs : Bool}
    (hallocates : Allocates s (.logs c line reallocs)) :
    Effect s (.logs c line reallocs) (s.logLine c line reallocs) := by
  rw [State.logLine]
  split
  next conn hc =>
    split_ifs with hcallback
    · -- the ex-data points to the buffer of this connection, which is still there
      obtain ⟨p, hex, hp⟩ := h.ready c conn hc hcallback.1 hcallback.2
      obtain ⟨b, ls, hb, hcontent, hls, hbuffered⟩ := h.exists_buffer ((addr_of_conns hc).trans hp)
      have hfit : b.len = b.cap → reallocs = true ∧ keylogBufGrow b.cap * 4 < 2 ^ 32 := by
        intro hfull
        have hb' := of_decide_eq_true (hallocates c rfl b hcontent)
        exact hb'.resolve_left fun hne => hne hfull
      obtain ⟨b', happend, hls'⟩ := hls.append hfit line
      have hcb : s.keylogCb reallocs conn.ssl line =
          some { s with heap := update s.heap p (some b') } := by
        simp only [State.keylogCb, hex, hb, happend, Option.bind_eq_bind, Option.bind_some,
          Option.pure_def]
      simp only [hcb]
      refine h.effect_write rfl hc hp hls' nofun ?_
      rw [hbuffered, loggedBy, if_pos rfl, List.map_append, List.map_singleton]
      rfl
    · exact h.effect_impossible _
  next => exact h.effect_impossible _

/-- What is delivered is what the buffer had. -/
theorem Inv.effect_drainKeylog (h : Inv s) (hallocates : Allocates s (.drainKeylog c)) {conn : Conn}
    (hc : s.conns c = some conn) {rep : ℕ} (hrep : conn.stage.buffer = some rep) :
    Effect s (.drainKeylog c) (s.drainKeylog rep) := by
  obtain ⟨b, ls, hb, hcontent, hls, hbuffered⟩ := h.exists_buffer ((addr_of_conns hc).trans hrep)
  have hfit : b.len * 8 < 2 ^ 32 := of_decide_eq_true (hallocates c rfl b hcontent)
  simp only [State.drainKeylog, hb, Option.bind_some, hls.drainTo hfit]
  refine h.effect_write rfl hc hrep keeps_init nofun ?_
  rw [hbuffered, drainedBy, if_pos rfl]
  rfl

theorem Inv.effect_connDrainKeylog (h : Inv s) (hallocates : Allocates s (.drainKeylog c)) :
    Effect s (.drainKeylog c) (s.connDrainKeylog c) := by
  rw [State.connDrainKeylog]
  split
  next hc => exact h.effect_drainKeylog hallocates hc rfl
  next hc => exact h.effect_drainKeylog hallocates hc rfl
  next => exact h.effect_impossible _

end

/-- What a step does to the lines of every connection. -/
theorem Inv.effect {s : State} (h : Inv s) {e : Event} (hallocates : Allocates s e) :
    Effect s e (step s e) := by
  cases e with
  | bind l keylog =>
    rw [step, State.serverListenerBind]
    split_ifs
    · exact h.effect_impossible _
    · refine h.effect_listeners rfl fun l' lr hlr => ?_
      rw [update_apply] at hlr
      split_ifs at hlr
      · cases hlr
        rfl
      · exact h.listeners l' lr hlr
  | closeListener l =>
    refine h.effect_listeners rfl fun l' lr hlr => ?_
    rw [update_apply] at hlr
    split_ifs at hlr
    · cases hlr
    · exact h.listeners l' lr hlr
  | connect c keylog pre => exact h.effect_startConn rfl ⟨rfl, rfl⟩ _ rfl pre
  | accept c l pre =>
    rw [step, State.serverListenerAccept]
    split
    · exact h.effect_impossible _
    next lr hl =>
      -- the context of a listener has the callback exactly if its connections get buffers
      exact h.effect_startConn rfl ⟨rfl, rfl⟩ _ (h.listeners l lr hl) pre
  | memBioClientNew c keylog pre => exact h.effect_startConn rfl ⟨rfl, rfl⟩ _ rfl pre
  | memBioServerNew c keylog pre => exact h.effect_startConn rfl ⟨rfl, rfl⟩ _ rfl pre
  | fails c => exact h.effect_failConn rfl ⟨rfl, rfl⟩
  | completes c rep => exact h.effect_finishConn rfl ⟨rfl, rfl⟩ rep
  | logs c line reallocs => exact h.effect_logLine hallocates
  | drainKeylog c => exact h.effect_connDrainKeylog hallocates
  | close c => exact h.effect_closeConn rfl ⟨rfl, rfl⟩

/-! ## Runs -/

/-- What holds of a run so far. -/
structure Good (t : List (Event × Answer)) (s : State) : Prop where
  inv : Inv s
  ok : ∀ p ∈ t, p.2 ≠ .fault
  drained_prefix : ∀ c, drained c t <+: logged c t
  lines : ∀ c, ¬ s.Gone c → drained c t ++ s.buffered c = logged c t

theorem good_init : Good [] .init where
  inv := inv_init
  ok := nofun
  drained_prefix _ := List.nil_prefix
  lines _ _ := rfl

theorem drained_concat (c : ℕ) (t : List (Event × Answer)) (p : Event × Answer) :
    drained c (t ++ [p]) = drained c t ++ drainedBy c p := by
  rw [drained, drained, List.flatMap_append, List.flatMap_singleton]

theorem logged_concat (c : ℕ) (t : List (Event × Answer)) (p : Event × Answer) :
    logged c (t ++ [p]) = logged c t ++ loggedBy c p := by
  rw [logged, logged, List.flatMap_append, List.flatMap_singleton]

theorem Good.concat {t : List (Event × Answer)} {s : State} (h : Good t s) {e : Event}
    (hallocates : Allocates s e) :
    Good (t ++ [(e, (step s e).1)]) (step s e).2 := by
  have heffect := h.inv.effect hallocates
  have hlines : ∀ c, ¬ (step s e).2.Gone c →
      drained c (t ++ [(e, (step s e).1)]) ++ (step s e).2.buffered c =
        logged c (t ++ [(e, (step s e).1)]) := by
    intro c hc
    -- the step takes from the buffer what it delivers, and adds what is logged
    have hold := h.lines c (mt (heffect.gone c) hc)
    rw [drained_concat, logged_concat, List.append_assoc, heffect.lines c hc, ← List.append_assoc,
      hold]
  refine ⟨heffect.inv, ?_, fun c => ?_, hlines⟩
  · intro p hp
    rcases List.mem_append.mp hp with hp | hp
    · exact h.ok p hp
    · rw [List.mem_singleton.mp hp]
      exact heffect.ok
  · by_cases hc : (step s e).2.Gone c
    · -- nothing is delivered any more
      rw [drained_concat, logged_concat, heffect.lost c hc, List.append_nil]
      exact (h.drained_prefix c).trans (List.prefix_append _ _)
    · exact ⟨_, hlines c hc⟩

/-- In any order of connections that begin, fail, complete and are closed, of lines that OpenSSL
logs for them, and of drains: what was delivered to a connection, with what is still in its buffer,
is what OpenSSL has logged for it; once the connection is gone, what was delivered is the beginning
of that. The buffers stay within their memory. -/
theorem drained_append_buffered {events : List Event} (h : Allocated events) :
    let t := (run step .init events).1
    let s := (run step .init events).2
    (∀ p ∈ t, p.2 ≠ .fault) ∧
      (∀ c, ¬ s.Gone c → drained c t ++ s.buffered c = logged c t) ∧
      (∀ c, drained c t <+: logged c t) ∧
      ∀ c, ∀ b ∈ s.cells.content c, b.len ≤ b.cap ∧ b.cap = b.slots.length := by
  have hgood := run_invariant_along (I := Good) (P := Allocates) (fun t s e ht he => ht.concat he)
    good_init h
  refine ⟨hgood.ok, hgood.lines, hgood.drained_prefix, fun c b hb => ?_⟩
  obtain ⟨ls, hls⟩ := hgood.inv.keeps c b hb
  exact ⟨GrowArray.Holds.len_le_cap hls, hls.cap⟩

/-- Three connections of one listener, of which one fails; freed memory is used again. -/
def sharedRun : List Event :=
  let line (b : Byte) (h : b ≠ 0) : Line := ⟨[b], by simpa using h.symm⟩
  [.bind 0 true, .accept 0 0 10, .accept 1 0 11, .logs 0 (line 65 (by decide)) true,
    .logs 1 (line 66 (by decide)) true, .completes 0 12, .logs 0 (line 67 (by decide)) true,
    -- at the address that the first connection has just left
    .completes 1 10, .drainKeylog 0, .accept 2 0 11, .logs 2 (line 68 (by decide)) true, .fails 2,
    .logs 0 (line 69 (by decide)) true, .drainKeylog 1]

theorem drained_append_buffered_sharedRun :
    let t := (run step .init sharedRun).1
    let s := (run step .init sharedRun).2
    drained 0 t ++ s.buffered 0 = [[65], [67], [69]] ∧ drained 1 t ++ s.buffered 1 = [[66]] := by
  have hlines := (@drained_append_buffered sharedRun (by decide)).2.1
  exact ⟨hlines 0 (by decide), hlines 1 (by decide)⟩

end OpenSSLWasm.Tls.Keylog
