import OpenSSLWasm.Tls.AlpnSelect

/-!
# Protocols out of the callback's reach

`alpn_select_cb` measures the list of a server anew for each connection. A constructor that succeeds
should have a list in which it finds all the protocols of the configuration.

## Main definitions

* `Measures`: the length that is found is that of all the protocols;
* `AlpnReached`: so it is in every server that is made with a list.

## Main results

* `measures_iff`: which lists are measured as they should, once there is one;
* `alpnReached_iff`: which lists end up in the callback's reach.
-/

namespace OpenSSLWasm.Tls

open LengthPrefixed

/-- The length found by the scan is the sum over all protocols of one plus their length, whatever
lies behind the list. -/
def Measures (serverList : List Byte) (ps : List (List Byte)) : Prop :=
  ∀ beyond : Byte, ∃ fuel, alpnScan (fun i => serverList.getD i beyond) fuel =
    some (ps.map fun p => 1 + p.length).sum

/-- A server of either kind that is made with the list has a callback, which measures it as it
should. -/
def AlpnReached (a : AlpnOffer) : Prop :=
  ∀ (Store Cert Key : Type) (accepts : Settings Store Cert Key → Setting Store Cert Key → Bool)
    (host : List Byte) (port : BitVec 16) (cfg : ServerConfig Store Cert Key)
    (env : Outcomes Store Cert Key) (s : Settings Store Cert Key), cfg.alpn = some a →
      bind accepts host port cfg env = .ok s ∨ memBioServerNew accepts cfg env = .ok s →
        ∃ l, s.alpnSelect = some l ∧ Measures l a.protocols

theorem length_encode_eq_sum (ps : List (List Byte)) :
    (encode ps).length = (ps.map fun p => 1 + p.length).sum := by
  induction ps with
  | nil => rfl
  | cons p ps ih =>
    rw [encode_cons, List.length_cons, List.length_append, ih, List.map_cons, List.sum_cons]
    omega

/-- There is a list for the callback if no protocol has more than 255 bytes. -/
theorem alpnServerList_eq_some {a : AlpnOffer} {l : List Byte}
    (h : alpnServerList (some a) = some l) :
    (∀ p ∈ a.protocols, p.length ≤ 255) ∧ l = encode a.protocols ++ [0] := by
  rw [alpnServerList, alpnWire_eq] at h
  split_ifs at h with hlen
  · exact ⟨hlen, (Option.some.inj h).symm⟩
  · cases h

/-- A list that could be laid out is measured as it should exactly if no protocol is empty. -/
theorem measures_iff {a : AlpnOffer} {l : List Byte} (h : alpnServerList (some a) = some l) :
    Measures l a.protocols ↔ [] ∉ a.protocols := by
  obtain ⟨hlen, rfl⟩ := alpnServerList_eq_some h
  have hlt : ∀ p ∈ a.protocols, p.length < 256 := fun p hp => Nat.lt_succ_of_le (hlen p hp)
  rw [Measures, ← length_encode_eq_sum]
  exact ⟨fun h => (walk_encode_eq_length_iff 0 hlt []).mp (h 0),
    fun h beyond => (walk_encode_eq_length_iff beyond hlt []).mpr h⟩

/-- A server with nothing but a list of protocols. -/
def alpnServer (a : AlpnOffer) : ServerConfig Unit Unit Unit where
  protocols := ⟨.tls12, .tls13⟩
  verify := .none
  certChain := []
  key := ()
  alpn := some a

/-- It is made, whatever the list, and has a callback if the list could be laid out. -/
theorem bind_alpnServer (a : AlpnOffer) :
    ∃ s, bind (fun _ _ => true) [] 0 (alpnServer a) .fine = .ok s ∧
      s.alpnSelect = alpnServerList (some a) := by
  refine ⟨_, rfl, ?_⟩
  show ((libssl fun _ _ => true).attemptAll (selectCalls (some a)) _).alpnSelect = _
  rw [selectCalls]
  cases alpnServerList (some a) <;> rfl

/-- A server that is made with a list has all of it in the callback's reach exactly if every
protocol has 1 to 255 bytes: a list with a longer one is dropped, and an empty one looks like the
end. -/
theorem alpnReached_iff (a : AlpnOffer) :
    AlpnReached a ↔ ∀ p ∈ a.protocols, 1 ≤ p.length ∧ p.length ≤ 255 := by
  constructor
  · intro h
    -- such a server is made whatever the list
    obtain ⟨s, hs, hselect⟩ := bind_alpnServer a
    obtain ⟨l, hl, hmeasures⟩ := h Unit Unit Unit _ _ _ _ _ s rfl (Or.inl hs)
    rw [hselect] at hl
    have hnil := (measures_iff hl).mp hmeasures
    intro p hp
    exact ⟨List.length_pos_iff.mpr fun h0 => hnil (h0 ▸ hp), (alpnServerList_eq_some hl).1 p hp⟩
  · intro h Store Cert Key accepts host port cfg env s halpn hs
    have hentries : ∀ p ∈ a.protocols, Entry p :=
      fun p hp => ⟨List.length_pos_iff.mp (h p hp).1, Nat.lt_succ_of_le (h p hp).2⟩
    have hlist : alpnServerList cfg.alpn = some (encode a.protocols ++ [0]) := by
      rw [halpn, alpnServerList, alpnWire_of_entries hentries, Option.map_some]
    -- both constructors install the callback with this list
    refine ⟨encode a.protocols ++ [0], ?_, ?_⟩
    · rcases hs with hs | hs
      · exact alpnSelect_of_bind hs hlist
      · exact alpnSelect_of_memBioServerNew hs hlist
    · rw [halpn] at hlist
      exact (measures_iff hlist).mpr fun hmem => (hentries [] hmem).1 rfl

/-- With an empty protocol before it, `h2` cannot be selected. -/
theorem not_alpnReached_empty : ¬AlpnReached ⟨[[], ascii "h2"]⟩ := by
  intro h
  obtain ⟨s, hs, hselect⟩ := bind_alpnServer ⟨[[], ascii "h2"]⟩
  obtain ⟨l, hl, hmeasures⟩ := h Unit Unit Unit _ _ _ _ _ s rfl (Or.inl hs)
  rw [hselect] at hl
  exact (measures_iff hl).mp hmeasures List.mem_cons_self

end OpenSSLWasm.Tls
