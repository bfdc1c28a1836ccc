import OpenSSLWasm.Lib.Slots
import OpenSSLWasm.Tls.Config

/-!
# Selection of an application protocol

A server of `src/tls.c` lays its protocols out in a buffer, keeps a copy with a NUL at the end, and
hands the copy to `alpn_select_cb` for each connection. The callback is given nothing but a pointer:
it finds the end of the list by walking over it. `SSL_select_next_proto` belongs to libssl and is a
parameter.

## Main definitions

* `alpnWireBuffer`: `alpn_wire` with its buffer, as `alpnWire` is without it;
* `alpnServerBuffer`: the copy that a server keeps;
* `alpnSelectCb`: the callback.

## Main results

* `alpnWireBuffer_eq` and `alpnServerBuffer_eq`: the buffers are just large enough for what is
  written to them, and hold the layout;
* `alpn_selects_first_common`: a server selects the first of its protocols that is offered.
-/

namespace OpenSSLWasm.Tls

open LengthPrefixed Slots

/-! ## The buffers -/

/-- The offer is in the memory of the component, where each protocol takes a pointer and a length
besides its bytes. -/
def AlpnOffer.InMemory (a : AlpnOffer) : Prop :=
  8 * a.protocols.length + a.protocols.flatten.length < 2 ^ 32

instance (a : AlpnOffer) : Decidable a.InMemory := inferInstanceAs (Decidable (_ < _))

/-- The first loop of `alpn_wire`, in the arithmetic of `size_t`. -/
def alpnWireTotal (ps : List (List Byte)) : ℕ :=
  ps.foldl (fun total p => (total + (1 + p.length)) % 2 ^ 32) 0

/-- The second loop of `alpn_wire`, from the position `o` on. It fails where it writes past the end
of the buffer. -/
def alpnWireFill : List (List Byte) → ℕ → List (Option Byte) → Option (Option (List (Option Byte)))
  | [], _, buf => some (some buf)
  | p :: ps, o, buf =>
    -- the buffer is freed, and no list is used
    if 255 < p.length then some none
    else
      (store buf o (BitVec.ofNat 8 p.length)).bind fun buf =>
        (storeAll buf ((o + 1) % 2 ^ 32) p).bind fun buf =>
          alpnWireFill ps ((o + 1 + p.length) % 2 ^ 32) buf

/-- `alpn_wire`: a buffer and `*out_len`, or no buffer. -/
def alpnWireBuffer : Option AlpnOffer → Option (Option (List (Option Byte) × ℕ))
  | none => some none
  | some a =>
    let total := alpnWireTotal a.protocols
    -- never an allocation of no bytes
    (alpnWireFill a.protocols 0 (alloc (if total = 0 then 1 else total))).map fun buf =>
      buf.map fun buf => (buf, total)

/-- The copy with a NUL at its end. -/
def alpnNulCopy (wire : List (Option Byte)) (w : ℕ) : Option (List (Option Byte)) :=
  (load wire w).bind fun bytes =>
    (storeAll (alloc ((w + 1) % 2 ^ 32)) 0 bytes).bind fun nul => store nul w 0

/-- What `bind` and `mem-bio-server.new` both keep, if there is a buffer. -/
def alpnServerBuffer (a : Option AlpnOffer) : Option (Option (List (Option Byte))) :=
  (alpnWireBuffer a).bind fun
    | none => some none
    | some (wire, w) => (alpnNulCopy wire w).map some

theorem foldl_alpnWireTotal (ps : List (List Byte)) {t : ℕ} (ht : t < 2 ^ 32) :
    ps.foldl (fun total p => (total + (1 + p.length)) % 2 ^ 32) t =
      (t + (encode ps).length) % 2 ^ 32 := by
  induction ps generalizing t with
  | nil => simpa using (Nat.mod_eq_of_lt ht).symm
  | cons p ps ih =>
    rw [List.foldl_cons, ih (Nat.mod_lt _ (Nat.two_pow_pos 32)), encode_cons, List.length_cons,
      List.length_append]
    omega

/-- In memory, the layout is shorter than the addresses reach, with a NUL as well. -/
theorem AlpnOffer.InMemory.length_encode_lt {a : AlpnOffer} (h : a.InMemory) :
    (encode a.protocols).length + 1 < 2 ^ 32 := by
  rw [InMemory] at h
  rw [length_encode]
  rcases ha : a.protocols with _ | ⟨p, ps⟩
  · decide
  · rw [ha, List.length_cons] at h
    rw [List.length_cons]
    omega

/-- The length that is computed is that of the layout. -/
theorem AlpnOffer.InMemory.alpnWireTotal_eq {a : AlpnOffer} (h : a.InMemory) :
    alpnWireTotal a.protocols = (encode a.protocols).length := by
  have := h.length_encode_lt
  rw [alpnWireTotal, foldl_alpnWireTotal _ (Nat.two_pow_pos 32), Nat.zero_add,
    Nat.mod_eq_of_lt (by omega)]

/-- The loop fills a buffer that has room for the layout as `alpnWireLoop` fills a list, and leaves
what is behind. -/
theorem alpnWireFill_eq (ps : List (List Byte)) (bs : List Byte) (behind : List (Option Byte))
    (hroom : (encode ps).length ≤ behind.length) (hsize : bs.length + behind.length < 2 ^ 32) :
    alpnWireFill ps bs.length (bs.map some ++ behind) =
      some ((alpnWireLoop ps bs).map fun wire =>
        wire.map some ++ behind.drop (encode ps).length) := by
  -- what is filled grows by one entry, and what is behind shrinks by it
  induction ps generalizing bs behind with
  | nil => simp [alpnWireFill, alpnWireLoop]
  | cons p ps ih =>
    rw [alpnWireFill, alpnWireLoop]
    by_cases hp : 255 < p.length
    · rw [if_pos hp, if_pos hp, Option.map_none]
    · rw [if_neg hp, if_neg hp]
      rw [encode_cons, List.length_cons, List.length_append] at hroom
      obtain ⟨x, behind, rfl⟩ : ∃ x behind', behind = x :: behind' :=
        List.exists_cons_of_length_pos (by omega)
      rw [List.length_cons] at hroom hsize
      -- the byte for the length, then the protocol
      have hbyte := store_append (bs.map some) x behind (BitVec.ofNat 8 p.length)
      have hbytes := storeAll_append (bs.map some ++ [some (BitVec.ofNat 8 p.length)]) behind
        p (by omega)
      simp only [List.length_map, List.length_append, List.length_singleton, List.append_assoc,
        List.cons_append, List.nil_append] at hbyte hbytes
      rw [hbyte, Option.bind_some, Nat.mod_eq_of_lt (by omega), hbytes, Option.bind_some,
        Nat.mod_eq_of_lt (by omega)]
      -- now they are part of what was filled before
      have hnext := ih (bs ++ BitVec.ofNat 8 p.length :: p) (behind.drop p.length)
        (by rw [List.length_drop]; omega)
        (by simp only [List.length_append, List.length_cons, List.length_drop]; omega)
      simp only [List.length_append, List.length_cons, List.map_append, List.map_cons,
        List.append_assoc, List.cons_append, List.drop_drop] at hnext
      rw [show bs.length + 1 + p.length = bs.length + (p.length + 1) by omega, hnext, encode_cons,
        List.length_cons, List.length_append, List.drop_succ_cons]

/-- `alpn_wire` gives a buffer with the layout and no more, but for the one byte that it allocates
for an empty layout. -/
theorem alpnWireBuffer_eq {a : AlpnOffer} (h : a.InMemory) :
    alpnWireBuffer (some a) =
      some ((alpnWire (some a)).map fun wire =>
        (wire.map some ++ alloc (1 - wire.length), wire.length)) := by
  have hlt := h.length_encode_lt
  rw [alpnWireBuffer, h.alpnWireTotal_eq]
  have hfill := alpnWireFill_eq a.protocols []
    (alloc (if (encode a.protocols).length = 0 then 1 else (encode a.protocols).length))
    (by rw [length_alloc]; split <;> omega)
    (by rw [length_alloc, List.length_nil]; split <;> omega)
  rw [List.map_nil, List.nil_append, List.length_nil] at hfill
  simp only [hfill, Option.map_some, Option.map_map, alpnWire, Option.bind_some, alpnWireLoop_eq,
    List.nil_append]
  by_cases h255 : ∀ p ∈ a.protocols, p.length ≤ 255
  · -- the buffer has as many slots as the layout has bytes, or one
    have hdrop : (if (encode a.protocols).length = 0 then 1 else (encode a.protocols).length) -
        (encode a.protocols).length = 1 - (encode a.protocols).length := by
      split <;> omega
    simp only [if_pos h255, Option.map_some, Function.comp_apply, alloc, List.drop_replicate,
      hdrop]
  · simp only [if_neg h255, Option.map_none]

/-- The copy is as long as the layout and a NUL. -/
theorem alpnNulCopy_eq (wire : List Byte) (behind : List (Option Byte))
    (h : wire.length + 1 < 2 ^ 32) :
    alpnNulCopy (wire.map some ++ behind) wire.length = some ((wire ++ [0]).map some) := by
  have hstore := storeAll_append [] (alloc (wire.length + 1)) wire
    (by rw [length_alloc]; omega)
  rw [List.nil_append, List.length_nil] at hstore
  rw [alpnNulCopy, load_append, Option.bind_some, Nat.mod_eq_of_lt h, hstore, Option.bind_some,
    List.nil_append, alloc, List.drop_replicate, Nat.add_sub_cancel_left]
  have hnul := store_append (wire.map some) none [] (0 : Byte)
  rw [List.length_map] at hnul
  simpa using hnul

/-- What a server keeps is the list that the callback goes by. -/
theorem alpnServerBuffer_eq {a : AlpnOffer} (h : a.InMemory) :
    alpnServerBuffer (some a) = some ((alpnServerList (some a)).map (·.map some)) := by
  have hlt := h.length_encode_lt
  rw [alpnServerBuffer, alpnServerList, alpnWireBuffer_eq h, alpnWire_eq]
  split
  · simp only [Option.map_some, Option.bind_some, alpnNulCopy_eq _ _ hlt]
  · rfl

/-! ## The callback -/

/-- The positions of the list that `alpn_select_cb` looks at. -/
def alpnScanReads (serverList : Ptr) (fuel : ℕ) : List ℕ := walkReads serverList fuel 0

/-- What `SSL_select_next_proto` returns and gives out. -/
structure NextProto where
  negotiated : Bool
  out : List Byte
  deriving DecidableEq, Repr

/-- `SSL_TLSEXT_ERR_OK`, with the protocol that was selected, and `SSL_TLSEXT_ERR_NOACK`. -/
inductive TlsextErr
  | ok (selected : List Byte)
  | noAck
  deriving DecidableEq, Repr

/-- `alpn_select_cb`, for at most `fuel` rounds of its loop. -/
def alpnSelectCb (selectNextProto : List Byte → List Byte → NextProto) (arg : Option Ptr)
    (offer : List Byte) (fuel : ℕ) : Option TlsextErr :=
  match arg with
  | none => some .noAck
  | some serverList =>
    (alpnScan serverList fuel).map fun slen =>
      let next := selectNextProto (readBytes serverList slen) offer
      if next.negotiated then .ok next.out else .noAck

/-- What `SSL_select_next_proto` is documented to do: it finds the first protocol of the server that
the client offers. -/
def SelectsFirst (selectNextProto : List Byte → List Byte → NextProto) : Prop :=
  ∀ ps cs server client, Encodes ps server → Encodes cs client →
    match ps.find? (· ∈ cs) with
    | some p => selectNextProto server client = ⟨true, p⟩
    | none => (selectNextProto server client).negotiated = false

/-- The first of a list of protocols that is offered. -/
def firstCommon (ps cs : List (List Byte)) : TlsextErr :=
  match ps.find? (· ∈ cs) with
  | some p => .ok p
  | none => .noAck

theorem firstCommon_eq_noAck_iff {ps cs : List (List Byte)} :
    firstCommon ps cs = .noAck ↔ ∀ p ∈ ps, p ∉ cs := by
  have hfind : firstCommon ps cs = .noAck ↔ ps.find? (· ∈ cs) = none := by
    rw [firstCommon]
    split <;> simp_all
  rw [hfind, List.find?_eq_none]
  simp

/-- A list in memory, with other memory behind it. -/
def listPtr (l : List Byte) (beyond : Ptr) : Ptr := fun i => l.getD i (beyond i)

/-- The callback walks over the list that the server keeps and no further, for one round for each
protocol and one for the NUL, and answers with the first common protocol. -/
structure CallsBack (selectNextProto : List Byte → List Byte → NextProto)
    (ps cs : List (List Byte)) (offer serverList : List Byte) (beyond : Ptr) : Prop where
  scan : alpnScan (listPtr serverList beyond) (ps.length + 1) = some (serverList.length - 1)
  reads : ∀ i ∈ alpnScanReads (listPtr serverList beyond) (ps.length + 1), i < serverList.length
  answer : alpnSelectCb selectNextProto (some (listPtr serverList beyond)) offer (ps.length + 1) =
    some (firstCommon ps cs)

/-- The list of a configuration that is made of entries. -/
theorem callsBack_of_encodes {selectNextProto : List Byte → List Byte → NextProto}
    (hselect : SelectsFirst selectNextProto) {ps cs : List (List Byte)} {offer wire : List Byte}
    (hwire : Encodes ps wire) (hoffer : Encodes cs offer) (beyond : Ptr) :
    CallsBack selectNextProto ps cs offer (wire ++ [0]) beyond := by
  have hscan : walk (listPtr (wire ++ [0]) beyond) (ps.length + 1) 0 = some wire.length := by
    -- the walk sees the list and its NUL, and nothing of the memory behind
    rw [hwire.2]
    refine walk_congr (fun i hi => ?_) (walk_encode 0 hwire.1 [])
    have hlt : i < (encode ps ++ [0]).length := by
      simp only [List.length_append, List.length_singleton]
      omega
    rw [listPtr, List.getD_eq_getElem?_getD, List.getD_eq_getElem?_getD,
      List.getElem?_eq_getElem hlt, Option.getD_some, Option.getD_some]
  refine ⟨by simpa [alpnScan] using hscan, fun i hi => ?_, ?_⟩
  · have := le_of_mem_walkReads hscan i hi
    simp only [List.length_append, List.length_singleton]
    omega
  · -- what is handed on is the list without the NUL
    have hread : readBytes (listPtr (wire ++ [0]) beyond) wire.length = wire := by
      refine List.ext_getElem (length_readBytes _ _) fun i hi _ => ?_
      rw [length_readBytes] at hi
      simp [readBytes, listPtr, List.getElem?_append_left, hi]
    -- both lists are made of entries, so what is selected is known
    have hfirst := hselect ps cs wire offer hwire hoffer
    rw [alpnSelectCb, alpnScan, hscan, Option.map_some, hread, firstCommon]
    split at hfirst <;> simp [*]

/-! ## Servers -/

variable {Store Cert Key : Type} {accepts : Settings Store Cert Key → Setting Store Cert Key → Bool}

/-- libssl takes the argument of the callback in every state. -/
theorem alpnSelect_attemptAll_selectCalls {alpn : Option AlpnOffer} {l : List Byte}
    (h : alpnServerList alpn = some l) (s : Settings Store Cert Key) :
    ((libssl accepts).attemptAll (selectCalls alpn) s).alpnSelect = some l := by
  simp [selectCalls, h, Setters.attempt, libssl, Setting.isFree, Setting.apply]

theorem alpnSelect_of_bind {host : List Byte} {port : BitVec 16}
    {cfg : ServerConfig Store Cert Key} {env : Outcomes Store Cert Key}
    {s : Settings Store Cert Key} (h : bind accepts host port cfg env = .ok s) {l : List Byte}
    (hl : alpnServerList cfg.alpn = some l) : s.alpnSelect = some l := by
  simp only [bind, ite_error_eq_ok, Except.ok.injEq] at h
  obtain ⟨-, -, -, rfl⟩ := h
  exact alpnSelect_attemptAll_selectCalls hl _

theorem alpnSelect_of_memBioServerNew {cfg : ServerConfig Store Cert Key}
    {env : Outcomes Store Cert Key} {s : Settings Store Cert Key}
    (h : memBioServerNew accepts cfg env = .ok s) {l : List Byte}
    (hl : alpnServerList cfg.alpn = some l) : s.alpnSelect = some l := by
  simp only [memBioServerNew, ite_error_eq_ok, Except.ok.injEq] at h
  obtain ⟨-, -, -, -, rfl⟩ := h
  exact alpnSelect_attemptAll_selectCalls hl _

/-- The argument of the callback is the buffer that was filled, and the callback goes by it. -/
def SelectsFirstCommon (selectNextProto : List Byte → List Byte → NextProto)
    (ps cs : List (List Byte)) (offer : List Byte) (buffer : List (Option Byte))
    (s : Settings Store Cert Key) : Prop :=
  ∃ l, s.alpnSelect = some l ∧ buffer = l.map some ∧
    ∀ beyond, CallsBack selectNextProto ps cs offer l beyond

/-- For a configuration of protocols of 1 to 255 bytes, `alpn_wire` writes as many bytes as it has
computed, which is the whole of its buffer unless there are none; and a server of either kind keeps
a copy that the callback walks over to its end and no further, to select the first of the protocols
that the client offers. It selects none exactly if there is none. -/
theorem alpn_selects_first_common (host : List Byte) (port : BitVec 16)
    (cfg : ServerConfig Store Cert Key) {a : AlpnOffer} (ha : cfg.alpn = some a)
    (hmem : a.InMemory) (hps : ∀ p ∈ a.protocols, 1 ≤ p.length ∧ p.length ≤ 255)
    {selectNextProto : List Byte → List Byte → NextProto} (hselect : SelectsFirst selectNextProto)
    {cs : List (List Byte)} {offer : List Byte} (hoffer : Encodes cs offer) :
    (∃ (wire : List Byte) (buffer : List (Option Byte)),
      alpnWireTotal a.protocols = wire.length ∧
      alpnWireBuffer cfg.alpn = some (some (wire.map some ++ alloc (1 - wire.length),
        wire.length)) ∧
      alpnServerBuffer cfg.alpn = some (some buffer) ∧ buffer.length = wire.length + 1 ∧
      (∀ env s, bind accepts host port cfg env = .ok s →
        SelectsFirstCommon selectNextProto a.protocols cs offer buffer s) ∧
      (∀ env s, memBioServerNew accepts cfg env = .ok s →
        SelectsFirstCommon selectNextProto a.protocols cs offer buffer s)) ∧
    (firstCommon a.protocols cs = .noAck ↔ ∀ p ∈ a.protocols, p ∉ cs) := by
  have hentries : ∀ p ∈ a.protocols, Entry p := by
    intro p hp
    obtain ⟨h1, h255⟩ := hps p hp
    exact ⟨List.length_pos_iff.mp h1, by omega⟩
  have hwire := alpnWire_of_entries hentries
  have hlist : alpnServerList cfg.alpn = some (encode a.protocols ++ [0]) := by
    rw [ha, alpnServerList, hwire, Option.map_some]
  -- both kinds of servers register the callback with the same list
  have hcalls : ∀ s : Settings Store Cert Key, s.alpnSelect = some (encode a.protocols ++ [0]) →
      SelectsFirstCommon selectNextProto a.protocols cs offer
        ((encode a.protocols ++ [0]).map some) s := fun s hs =>
    ⟨_, hs, rfl, callsBack_of_encodes hselect ⟨hentries, rfl⟩ hoffer⟩
  refine ⟨⟨encode a.protocols, (encode a.protocols ++ [0]).map some, hmem.alpnWireTotal_eq, ?_, ?_,
    by simp, ?_, ?_⟩, firstCommon_eq_noAck_iff⟩
  · rw [ha, alpnWireBuffer_eq hmem, hwire, Option.map_some]
  · rw [ha, alpnServerBuffer_eq hmem, ← ha, hlist, Option.map_some]
  · exact fun env s h => hcalls s (alpnSelect_of_bind h hlist)
  · exact fun env s h => hcalls s (alpnSelect_of_memBioServerNew h hlist)

/-! ## A `SSL_select_next_proto` -/

/-- It reads both lists and looks for the protocols of the server in turn. -/
def selectNextProto (server client : List Byte) : NextProto :=
  let cs := decode client.length client
  match (decode server.length server).find? (· ∈ cs) with
  | some p => ⟨true, p⟩
  -- what is given out here is the first protocol of the client, which is not used
  | none => ⟨false, cs.headD []⟩

theorem selectsFirst_selectNextProto : SelectsFirst selectNextProto := by
  intro ps cs server client hserver hclient
  have hlen {ps : List (List Byte)} {bytes : List Byte} (h : Encodes ps bytes) :
      decode bytes.length bytes = ps := by
    -- there are no more entries than bytes
    rw [h.2]
    refine decode_encode h.1 ?_
    rw [length_encode]
    exact Nat.le_add_right _ _
  rw [selectNextProto, hlen hserver, hlen hclient]
  split <;> rfl

/-- A server that prefers a protocol whose bytes look like a length and the end of a list. -/
def prefersOdd : ServerConfig Unit Unit Unit where
  protocols := ⟨.tls12, .tls13⟩
  verify := .none
  certChain := [()]
  key := ()
  alpn := some ⟨[[1, 0], [0x61]]⟩

/-- A client that offers both protocols of the server, and another one in front of them. -/
def offersOdd : List (List Byte) := [[0], [0x61], [1, 0]]

theorem alpn_selects_first_common_prefersOdd :
    firstCommon [[1, 0], [0x61]] offersOdd = .ok [1, 0] ∧
      ∃ buffer, ∀ env s, bind (fun _ _ => true) [] 0 prefersOdd env = .ok s →
        SelectsFirstCommon selectNextProto [[1, 0], [0x61]] offersOdd [1, 0, 1, 0x61, 2, 1, 0]
          buffer s := by
  have hoffer : Encodes offersOdd [1, 0, 1, 0x61, 2, 1, 0] := ⟨by simp [offersOdd, Entry], rfl⟩
  obtain ⟨⟨_, buffer, -, -, -, -, hbind, -⟩, -⟩ :=
    alpn_selects_first_common [] 0 prefersOdd rfl (by decide)
      (by simp) selectsFirst_selectNextProto hoffer
  exact ⟨by decide, buffer, hbind⟩

end OpenSSLWasm.Tls
