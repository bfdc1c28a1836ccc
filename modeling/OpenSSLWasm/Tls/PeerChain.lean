import OpenSSLWasm.Lib.Slots
import OpenSSLWasm.Tls.Endpoint
import OpenSSLWasm.Tls.VerifyOptions

/-!
# The certificates of the peer

`fill_peer_info` and `fill_peer_chain_der` in `src/tls.c`, which all kinds of endpoints share, and
the two copies of `peer-cert-der`. Where the list of libssl begins depends on the side: that of a
client begins with the certificate of the peer, and that of a server behind it.

## Main definitions

* `SslView`: what libssl tells of a completed handshake;
* `fillPeerInfo`, `fillPeerChainDer` and `peerCertDer`: the accessors;
* `Kind.accessors`: those of each kind of endpoint;
* `ReportsPeer`: the accessors give all certificates of the peer, its own first.

## Main results

* `fillPeerInfo_eq` and `fillPeerChainDer_eq`: what the accessors give;
* `reportsPeer_iff`: the certificates are reported exactly by clients.
-/

namespace OpenSSLWasm.Tls

open Slots

/-! ## Accessors -/

/-- What libssl tells of a completed handshake; texts are their bytes. -/
structure SslView (C : Type) where
  /-- `SSL_version`. -/
  version : ℕ
  /-- `SSL_get_cipher_name`. -/
  cipherName : Option (List Byte)
  /-- `SSL_get0_alpn_selected`. -/
  alpnSelected : Option (List Byte)
  /-- `SSL_get_servername`. -/
  servername : Option (List Byte)
  /-- `SSL_get_peer_cert_chain`. -/
  peerCertChain : Option (List C)
  /-- `SSL_get1_peer_certificate`. -/
  peerCertificate : Option C
  /-- `SSL_session_reused`. -/
  sessionReused : Bool
  /-- `SSL_get0_group_name`. -/
  groupName : Option (List Byte)

/-- `peer-info`. -/
structure PeerInfo (C : Type) where
  protocol : Protocol
  cipherSuite : List Byte
  alpn : Option (List Byte)
  sni : Option (List Byte)
  peerChain : List C
  resumed : Bool
  group : Option (List Byte)
  deriving DecidableEq

section

variable {C : Type}

/-- The array of handles in `fill_peer_info`. -/
def takeChain (chain : List C) : Option (List C) :=
  (storeAll (alloc (if 0 < chain.length then chain.length else 1)) 0 chain).bind fun slots =>
    load slots chain.length

def fillPeerInfo (ssl : SslView C) : Option (PeerInfo C) :=
  (takeChain (ssl.peerCertChain.getD [])).map fun peerChain =>
    { protocol :=
        if ssl.version = 0x0304 then .tls13 else if ssl.version = 0xFEFD then .dtls12 else .tls12
      cipherSuite := ssl.cipherName.getD []
      alpn := ssl.alpnSelected.filter (· ≠ [])
      sni := ssl.servername.filter (· ≠ [])
      peerChain
      resumed := ssl.sessionReused
      group := ssl.groupName }

variable (i2d : C → Option (List Byte))

/-- The encoding of a certificate, unless `i2d_X509` fails or gives nothing. -/
def encoding (c : C) : Option (List Byte) := (i2d c).filter (· ≠ [])

/-- The loop of `fill_peer_chain_der`, which passes over certificates without an encoding; it gives
the number of those that it has written. -/
def fillPeerChainDerLoop :
    List C → List (Option (List Byte)) → ℕ → Option (List (Option (List Byte)) × ℕ)
  | [], slots, written => some (slots, written)
  | c :: cs, slots, written =>
    match encoding i2d c with
    -- the slot remains for the next certificate
    | none => fillPeerChainDerLoop cs slots written
    | some der =>
      (store slots written der).bind fun slots => fillPeerChainDerLoop cs slots (written + 1)

def fillPeerChainDer (ssl : Option (SslView C)) : Option (List (List Byte)) :=
  let chain := (ssl.bind SslView.peerCertChain).getD []
  if chain.length = 0 then some []
  else (fillPeerChainDerLoop i2d chain (alloc chain.length) 0).bind fun (slots, written) =>
    load slots written

/-- The body of both `peer-cert-der`. -/
def peerCertDer (ssl : SslView C) : Option (List Byte) :=
  ssl.peerCertificate.bind (encoding i2d)

def clientPeer (ssl : SslView C) := fillPeerInfo ssl
def clientPeerChainDer (ssl : SslView C) := fillPeerChainDer i2d (some ssl)
def serverPeer (ssl : SslView C) := fillPeerInfo ssl
def memBioClientPeerCertDer (ssl : SslView C) := peerCertDer i2d ssl
def memBioClientPeer (ssl : SslView C) := fillPeerInfo ssl
def memBioClientPeerChainDer (ssl : SslView C) := fillPeerChainDer i2d (some ssl)
def memBioServerPeerCertDer (ssl : SslView C) := peerCertDer i2d ssl
def memBioServerPeer (ssl : SslView C) := fillPeerInfo ssl
def memBioServerPeerChainDer (ssl : SslView C) := fillPeerChainDer i2d (some ssl)

/-- The accessors of an endpoint. -/
structure Accessors (C : Type) where
  peer : SslView C → Option (PeerInfo C)
  peerChainDer : Option (SslView C → Option (List (List Byte)))
  peerCertDer : Option (SslView C → Option (List Byte))

def Kind.accessors : Kind → Accessors C
  | client => ⟨clientPeer, some (clientPeerChainDer i2d), none⟩
  | server => ⟨serverPeer, none, none⟩
  | memBioClient => ⟨memBioClientPeer, some (memBioClientPeerChainDer i2d),
      some (memBioClientPeerCertDer i2d)⟩
  | memBioServer => ⟨memBioServerPeer, some (memBioServerPeerChainDer i2d),
      some (memBioServerPeerCertDer i2d)⟩

/-! ## What the accessors give -/

theorem takeChain_eq (chain : List C) : takeChain chain = some chain := by
  refine load_storeAll_alloc chain ?_
  split_ifs <;> omega

/-- The chain in `peer-info` is that of libssl. -/
theorem fillPeerInfo_eq (ssl : SslView C) :
    ∃ info, fillPeerInfo ssl = some info ∧ info.peerChain = ssl.peerCertChain.getD [] := by
  rw [fillPeerInfo, takeChain_eq]
  exact ⟨_, rfl, rfl⟩

/-- The loop writes the encodings one after the other. -/
theorem fillPeerChainDerLoop_eq (cs : List C) (slots : List (Option (List Byte))) (written : ℕ) :
    fillPeerChainDerLoop i2d cs slots written =
      (storeAll slots written (cs.filterMap (encoding i2d))).map fun slots =>
        (slots, written + (cs.filterMap (encoding i2d)).length) := by
  induction cs generalizing slots written with
  | nil => rfl
  | cons c cs ih =>
    rw [fillPeerChainDerLoop]
    rcases hder : encoding i2d c with _ | der
    · rw [List.filterMap_cons_none hder]
      exact ih slots written
    · rw [List.filterMap_cons_some hder, storeAll, List.length_cons]
      dsimp only
      rcases store slots written der with _ | slots
      · rfl
      · rw [Option.bind_some, Option.bind_some, ih slots, Nat.add_right_comm, Nat.add_assoc]

/-- `peer-chain-der` is the chain of libssl, encoded. -/
theorem fillPeerChainDer_eq (ssl : SslView C) :
    fillPeerChainDer i2d (some ssl) =
      some ((ssl.peerCertChain.getD []).filterMap (encoding i2d)) := by
  rw [fillPeerChainDer, Option.bind_some]
  generalize ssl.peerCertChain.getD [] = chain
  by_cases hempty : chain.length = 0
  · rw [if_pos hempty, List.length_eq_zero_iff.mp hempty]
    rfl
  · -- there is room for all certificates, and not all need have an encoding
    have hload := load_storeAll_alloc (chain.filterMap (encoding i2d))
      (List.length_filterMap_le (encoding i2d) chain)
    rw [if_neg hempty, fillPeerChainDerLoop_eq, Option.bind_map]
    simpa only [Function.comp_def, Nat.zero_add] using hload

/-! ## The two sides -/

/-- The endpoints that play the server. -/
def Kind.isServer : Kind → Bool
  | client | memBioClient => false
  | server | memBioServer => true

/-- The list that a peer sends. -/
def SentChain.list (sent : SentChain C) : List C := sent.leaf :: sent.others

/-- The documented behaviour of libssl after a full handshake in which the peer sent a list of
certificates: the list without the first is there for a server, if need be as no list at all, and
all of it for a client; the first is there for both. -/
structure SslView.Documented (server : Bool) (sent : SentChain C) (ssl : SslView C) : Prop where
  peerCertChain : ssl.peerCertChain.getD [] = if server then sent.others else sent.list
  peerCertificate : ssl.peerCertificate = some sent.leaf

/-- Every certificate of the list has an encoding. -/
def SentChain.EncodedBy (i2d : C → Option (List Byte)) (der : C → List Byte) (sent : SentChain C) :
    Prop :=
  ∀ c ∈ sent.list, i2d c = some (der c) ∧ der c ≠ []

/-- The accessors of an endpoint give the list that the peer sent, and the first of the list is the
certificate of the peer. -/
structure ReportsPeer (der : C → List Byte) (k : Kind) (sent : SentChain C) (ssl : SslView C) :
    Prop where
  peer : ∃ info, (k.accessors i2d).peer ssl = some info ∧ info.peerChain = sent.list
  peerChainDer : ∀ chainDer ∈ (k.accessors i2d).peerChainDer,
    chainDer ssl = some (sent.list.map der)
  peerCertDer : ∀ chainDer ∈ (k.accessors i2d).peerChainDer,
    ∀ certDer ∈ (k.accessors i2d).peerCertDer, (chainDer ssl).bind List.head? = certDer ssl

variable {i2d} {der : C → List Byte} {sent : SentChain C}

theorem encoding_of_encodedBy (h : sent.EncodedBy i2d der) {c : C} (hc : c ∈ sent.list) :
    encoding i2d c = some (der c) := by
  obtain ⟨hder, hne⟩ := h c hc
  rw [encoding, hder, Option.filter_some, if_pos (decide_eq_true hne)]

theorem filterMap_encoding (h : sent.EncodedBy i2d der) {cs : List C} (hcs : cs ⊆ sent.list) :
    cs.filterMap (encoding i2d) = cs.map der := by
  rw [← List.filterMap_eq_map]
  refine List.filterMap_congr fun c hc => ?_
  rw [encoding_of_encodedBy h (hcs hc), Function.comp_apply]

/-- The certificate of the peer is the same on both sides. -/
theorem peerCertDer_eq (h : sent.EncodedBy i2d der) {server : Bool} {ssl : SslView C}
    (hssl : ssl.Documented server sent) : peerCertDer i2d ssl = some (der sent.leaf) := by
  rw [peerCertDer, hssl.peerCertificate, Option.bind_some,
    encoding_of_encodedBy h List.mem_cons_self]

/-- A client has the whole list. -/
theorem fillPeerChainDer_of_client (h : sent.EncodedBy i2d der) {ssl : SslView C}
    (hssl : ssl.Documented false sent) :
    fillPeerChainDer i2d (some ssl) = some (sent.list.map der) := by
  rw [fillPeerChainDer_eq, hssl.peerCertChain, if_neg (by decide),
    filterMap_encoding h (List.Subset.refl _)]

/-- A server has the list without its first. -/
theorem fillPeerChainDer_of_server (h : sent.EncodedBy i2d der) {ssl : SslView C}
    (hssl : ssl.Documented true sent) :
    fillPeerChainDer i2d (some ssl) = some (sent.others.map der) := by
  rw [fillPeerChainDer_eq, hssl.peerCertChain, if_pos rfl,
    filterMap_encoding h (List.subset_cons_self _ _)]

/-- The certificates of a peer are reported exactly by the clients. -/
theorem reportsPeer_iff (h : sent.EncodedBy i2d der) {k : Kind} {ssl : SslView C}
    (hssl : ssl.Documented k.isServer sent) :
    ReportsPeer i2d der k sent ssl ↔ k = .client ∨ k = .memBioClient := by
  -- all that depends on the side is the list of libssl
  obtain ⟨info, hinfo, hchain⟩ := fillPeerInfo_eq ssl
  rw [hssl.peerCertChain] at hchain
  -- `peer` is the same function for every kind
  have hpeer : (k.accessors i2d).peer ssl = some info := by
    rcases k <;> exact hinfo
  constructor
  · -- a server would have a list that is equal to its own tail
    rintro ⟨⟨info', hinfo', hlist⟩, -, -⟩
    obtain rfl := Option.some.inj (hpeer.symm.trans hinfo')
    rcases k
    · exact .inl rfl
    · exact absurd (hlist.symm.trans hchain) (List.cons_ne_self _ _)
    · exact .inr rfl
    · exact absurd (hlist.symm.trans hchain) (List.cons_ne_self _ _)
  · rintro (rfl | rfl)
    · refine ⟨⟨info, hpeer, hchain⟩, ?_, ?_⟩
      · rintro _ ⟨⟩
        exact fillPeerChainDer_of_client h hssl
      · -- there is no `peer-cert-der` to agree with
        rintro _ _ _ ⟨⟩
    · refine ⟨⟨info, hpeer, hchain⟩, ?_, ?_⟩
      · rintro _ ⟨⟩
        exact fillPeerChainDer_of_client h hssl
      · rintro _ ⟨⟩ _ ⟨⟩
        rw [memBioClientPeerChainDer, memBioClientPeerCertDer, peerCertDer_eq h hssl,
          fillPeerChainDer_of_client h hssl]
        rfl

end

/-- A handshake with certificates of one byte, with the list of libssl and the certificate of the
peer as given. -/
def plainView (peerCertChain : Option (List Byte)) (peerCertificate : Byte) : SslView Byte where
  version := 0x0304
  cipherName := some (ascii "TLS_AES_128_GCM_SHA256")
  alpnSelected := none
  servername := none
  peerCertChain := peerCertChain
  peerCertificate := some peerCertificate
  sessionReused := false
  groupName := some (ascii "x25519")

theorem reportsPeer_iff_plainView :
    ReportsPeer (fun c => some [c]) (fun c => [c]) .memBioClient ⟨1, [2, 3]⟩
      (plainView (some [1, 2, 3]) 1) :=
  (reportsPeer_iff (fun c _ => ⟨rfl, List.cons_ne_nil c []⟩) (k := .memBioClient) ⟨rfl, rfl⟩).mpr
    (.inr rfl)

/-- A client that authenticates itself with a certificate and an intermediate one: for either server
the first of the list is the intermediate one. -/
theorem not_reportsPeer :
    (plainView (some [2]) 1).Documented Kind.memBioServer.isServer ⟨1, [2]⟩ ∧
      ¬ReportsPeer (fun c => some [c]) (fun c => [c]) .memBioServer ⟨1, [2]⟩
        (plainView (some [2]) 1) ∧
      memBioServerPeerChainDer (fun c => some [c]) (plainView (some [2]) 1) = some [[2]] ∧
      memBioServerPeerCertDer (fun c => some [c]) (plainView (some [2]) 1) = some [1] ∧
      ¬ReportsPeer (fun c => some [c]) (fun c => [c]) .server ⟨1, [2]⟩
        (plainView (some [2]) 1) := by
  refine ⟨⟨rfl, rfl⟩, fun h => ?_, by decide, by decide, fun h => ?_⟩
  · obtain ⟨info, hinfo, hchain⟩ := h.peer
    cases hinfo
    cases hchain
  · obtain ⟨info, hinfo, hchain⟩ := h.peer
    cases hinfo
    cases hchain

end OpenSSLWasm.Tls
