import OpenSSLWasm.Lib.LengthPrefixed
import OpenSSLWasm.Support

/-!
# Lists of application protocols

`alpn_wire` in `src/tls.c` lays out the protocols of a configuration, for the offer of a client and
for the list that `alpn_select_cb` goes by on a server.

## Main definitions

* `alpnWire`: the layout, which may fail;
* `alpnServerList`: the copy of it that a server keeps;
* `alpnScan`: the length that the callback finds;
* `Serves`: the callback goes by a given list of protocols.

## Main results

* `alpnWire_eq`: the layout fails on an entry of more than 255 bytes;
* `serves_alpnServerList_iff`: the callback goes by the list that it was given if there is no entry
  that is empty.
-/

namespace OpenSSLWasm.Tls

open LengthPrefixed

/-- `alpn-offer`. -/
structure AlpnOffer where
  protocols : List (List Byte)
  deriving DecidableEq

/-- The loop that fills the buffer. -/
def alpnWireLoop : List (List Byte) → List Byte → Option (List Byte)
  | [], buf => some buf
  | p :: ps, buf =>
    -- `(unsigned char)n` is the length here
    if 255 < p.length then none else alpnWireLoop ps (buf ++ BitVec.ofNat 8 p.length :: p)

def alpnWire (a : Option AlpnOffer) : Option (List Byte) :=
  a.bind fun a => alpnWireLoop a.protocols []

/-- The copy that a server keeps, with a NUL at its end. -/
def alpnServerList (a : Option AlpnOffer) : Option (List Byte) :=
  (alpnWire a).map (· ++ [0])

/-- `while (server_list[slen]) slen += 1 + server_list[slen];` in `alpn_select_cb`, for at most
`fuel` rounds. -/
def alpnScan (serverList : Ptr) (fuel : ℕ) : Option ℕ := walk serverList fuel 0

/-- The part of its list that `alpn_select_cb` hands on stands for the given protocols, whatever
lies behind the list. -/
def Serves (serverList : List Byte) (ps : List (List Byte)) : Prop :=
  ∀ beyond : Byte, ∃ fuel slen, alpnScan (fun i => serverList.getD i beyond) fuel = some slen ∧
    Encodes ps (serverList.take slen)

theorem alpnWireLoop_eq (ps : List (List Byte)) (buf : List Byte) :
    alpnWireLoop ps buf = if ∀ p ∈ ps, p.length ≤ 255 then some (buf ++ encode ps) else none := by
  induction ps generalizing buf with
  | nil => simp [alpnWireLoop]
  | cons p ps ih =>
    rw [alpnWireLoop]
    split
    · rw [if_neg]
      intro h
      have := h p List.mem_cons_self
      omega
    · simp only [ih, List.forall_mem_cons, encode_cons, List.append_assoc, List.cons_append]
      have hp : p.length ≤ 255 := by omega
      simp only [hp, true_and]

/-- The layout fails on an entry of more than 255 bytes. -/
theorem alpnWire_eq (a : AlpnOffer) :
    alpnWire (some a) =
      if ∀ p ∈ a.protocols, p.length ≤ 255 then some (encode a.protocols) else none := by
  rw [alpnWire, Option.bind_some, alpnWireLoop_eq, List.nil_append]

theorem alpnWire_of_entries {a : AlpnOffer} (h : ∀ p ∈ a.protocols, Entry p) :
    alpnWire (some a) = some (encode a.protocols) := by
  rw [alpnWire_eq, if_pos]
  intro p hp
  have := (h p hp).2
  omega

/-- The callback goes by the protocols of a configuration exactly if each of them is an entry. -/
theorem serves_alpnServerList_iff (a : AlpnOffer) :
    (∃ l, alpnServerList (some a) = some l ∧ Serves l a.protocols) ↔
      ∀ p ∈ a.protocols, Entry p := by
  constructor
  · rintro ⟨l, -, h⟩
    obtain ⟨_, _, -, h⟩ := h 0
    exact h.1
  · intro h
    refine ⟨encode a.protocols ++ [0], ?_, fun beyond => ?_⟩
    · rw [alpnServerList, alpnWire_of_entries h, Option.map_some]
    · exact ⟨_, _, walk_encode beyond h [], h, by simp⟩

end OpenSSLWasm.Tls
