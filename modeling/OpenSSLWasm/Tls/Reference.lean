import OpenSSLWasm.Tls.Ssl
import Mathlib.Algebra.Order.Ring.Int

/-!
# A libssl that behaves as documented

A small implementation of the calls on SSL objects: the transport delivers what the peer sends one
event at a time, and reading takes it from there. It shows that the documented behaviour can be
had, and it is where the runs live that show what the interface makes of it.

## Main definitions

* `Peer`: its objects;
* `referenceSsl`: the implementation.

## Main results

* `referenceSsl_documented`: it behaves as documented.
-/

namespace OpenSSLWasm.Tls

/-- What has arrived from the peer, and how its side ended. -/
structure Peer where
  ahead : List PeerEvent := []
  ended : Option PeerEvent := none
  deriving DecidableEq

namespace Peer

/-- The error that is left in the queue when something goes wrong. -/
def error : ErrorEntry := { code := 1, code_ne_zero := by decide }

/-- Read one byte, or find that there is none. -/
def read (s : Peer) (n : ℤ) : Outcome Peer :=
  if n < 0 then { ret := -1, errors := [error], ssl := s }
  else match s.ended with
    | some e => { ret := if e.isEnd then 0 else -1, ssl := s }
    | none =>
      match s.ahead.dropWhile (· = .handshake) with
      | [] => { ret := -1, ssl := { s with ahead := [] } }
      | .data b :: rest => { ret := 1, out := [b], ssl := { s with ahead := rest } }
      -- no error is left behind for a clean close
      | .closeNotify :: rest => { ret := 0, ssl := { ahead := rest, ended := some .closeNotify } }
      | e :: rest =>
        { ret := if e.isEnd then 0 else -1
          errors := [error]
          ssl := { ahead := rest, ended := some e } }

/-- Process one handshake message, if that is what comes first. -/
def doHandshake (s : Peer) : Outcome Peer :=
  match s.ahead with
  | .handshake :: rest => { ret := 1, ssl := { s with ahead := rest } }
  | _ => { ret := -1, ssl := s }

end Peer

/-- A libssl that keeps what has arrived, and writes without bounds. -/
def referenceSsl : LibSsl Peer PeerEvent where
  doHandshake := Peer.doHandshake
  read := Peer.read
  write s _ n := { ret := if 0 < n then n else -1, ssl := s }
  shutdown s := { ret := 1, ssl := s }
  transport s e := { s with ahead := s.ahead ++ [e] }
  reason s _ :=
    match s.ended with
    | none => .wantRead
    | some .closeNotify => .zeroReturn
    | some _ => .syscall
  ahead := Peer.ahead
  ended := Peer.ended
  arrived _ e := [e]

theorem Peer.find?_ahead (s : Peer) :
    s.ahead.find? (· ≠ .handshake) = (s.ahead.dropWhile (· = .handshake)).head? := by
  induction s.ahead with
  | nil => rfl
  | cons e es ih =>
    by_cases he : e = .handshake
    · simpa [he] using ih
    · simp [he]

theorem Peer.processes_of_drop {s : Peer} {rest : List PeerEvent} {e : PeerEvent}
    (h : s.ahead.dropWhile (· = .handshake) = e :: rest) {ended : Option PeerEvent}
    (hended : ended = s.ended ∨ ended = some e) :
    referenceSsl.Processes s { ahead := rest, ended } := by
  refine ⟨⟨s.ahead.takeWhile (· = .handshake) ++ [e], ?_, ?_⟩⟩
  · show s.ahead = _ ++ rest
    rw [List.append_assoc, List.singleton_append, ← h, List.takeWhile_append_dropWhile]
  · rintro e' (he : ended = some e')
    rcases hended with rfl | rfl
    · exact Or.inl he
    · -- what ended the peer's side is the last thing that was taken
      right
      obtain rfl := Option.some.inj he
      simp

theorem Peer.read_ret (s : Peer) (n : ℤ) :
    (s.read n).ret ≤ 0 ∨ (s.read n).ret = 1 ∧ (s.read n).out.length = 1 := by
  have hneg : (-1 : ℤ) ≤ 0 := by decide
  have hend : ∀ e : PeerEvent, (if e.isEnd then (0 : ℤ) else -1) ≤ 0 := by
    intro e
    split <;> decide
  unfold Peer.read
  split
  · exact Or.inl hneg
  · split
    · exact Or.inl (hend _)
    · split
      · exact Or.inl hneg
      · exact Or.inr ⟨rfl, rfl⟩
      · exact Or.inl le_rfl
      · exact Or.inl (hend _)

theorem LibSsl.Processes.refl {σ τ : Type} (S : LibSsl σ τ) (s : σ) : S.Processes s s :=
  ⟨⟨[], rfl, fun _ he => Or.inl he⟩⟩

/-- The implementation behaves as documented. -/
theorem referenceSsl_documented : referenceSsl.Documented where
  doHandshake s := by
    show referenceSsl.Processes s (Peer.doHandshake s).ssl
    unfold Peer.doHandshake
    split
    · next rest h => exact ⟨⟨[.handshake], h, fun _ he => Or.inl he⟩⟩
    · exact LibSsl.Processes.refl _ s
  read s n := by
    show referenceSsl.Processes s (Peer.read s n).ssl
    unfold Peer.read
    split
    · exact LibSsl.Processes.refl _ s
    · split
      · exact LibSsl.Processes.refl _ s
      · next hended =>
        split
        · next h => exact ⟨⟨s.ahead, by simp [referenceSsl], fun _ he => Or.inl he⟩⟩
        · next h => exact Peer.processes_of_drop h (Or.inl rfl)
        · next h => exact Peer.processes_of_drop h (Or.inr rfl)
        · next h => exact Peer.processes_of_drop h (Or.inr rfl)
  write s _ _ := LibSsl.Processes.refl _ s
  shutdown s := LibSsl.Processes.refl _ s
  ahead_transport _ _ := rfl
  ended_transport _ _ := rfl
  read_neg {s n} hn := by
    show (Peer.read s n).ret < 0
    rw [Peer.read, if_pos hn]
    exact neg_one_lt_zero
  read_eq_zero {s n} hn := by
    show (Peer.read s n).ret = 0 ↔ ∃ e ∈ (s.ended <|> s.ahead.find? (· ≠ .handshake)), _
    rw [Peer.find?_ahead, Peer.read, if_neg (by omega)]
    cases s.ended with
    | some e => cases h : e.isEnd <;> simp [h]
    | none =>
      cases s.ahead.dropWhile (· = .handshake) with
      | nil => simp
      | cons e rest =>
        cases e <;> simp [PeerEvent.isEnd, PeerEvent.isBrokenEnd]
  length_read {s n} hret := by
    rcases s.read_ret n with h | ⟨h, hlen⟩
    · exact absurd hret (Int.not_lt.mpr h)
    · show ((s.read n).out.length : ℤ) = (s.read n).ret
      rw [h, hlen]
      rfl
  reason_ne_ssl {s n} := by
    show (match s.ended with
      | none => SslError.wantRead
      | some .closeNotify => .zeroReturn
      | some _ => .syscall) ≠ .ssl
    split <;> simp

end OpenSSLWasm.Tls
