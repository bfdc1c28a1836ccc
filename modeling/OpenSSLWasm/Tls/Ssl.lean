import OpenSSLWasm.Error
import OpenSSLWasm.Support

/-!
# The SSL objects of OpenSSL

`src/tls.c` drives `SSL` objects of libssl, which is not part of the repository. It enters the
model as a parameter: a type of objects, together with their transport, and what each call does to
one. What the interface relies on is stated apart, as the hypothesis that libssl behaves as
documented.

## Main definitions

* `SslError` and `PeerEvent`: why a call failed, and what arrives from the peer;
* `LibSsl`: the calls on an object;
* `LibSsl.Documented`: their documented behaviour, seen through what has arrived and was not yet
  processed;
* `World` and `World.getError`: one object beside the error queue of the component.
-/

namespace OpenSSLWasm.Tls

/-- What `SSL_get_error` returns. -/
inductive SslError
  | none
  | ssl
  | wantRead
  | wantWrite
  | wantX509Lookup
  | syscall
  | zeroReturn
  | wantConnect
  | wantAccept
  deriving DecidableEq, Repr

namespace SslError

/-- The number that stands for it in the C code. -/
def code (e : SslError) : ℕ := e.ctorIdx

/-- `SSL_ERROR_WANT_READ` or `SSL_ERROR_WANT_WRITE`. -/
def isWant (e : SslError) : Bool := e == wantRead || e == wantWrite

end SslError

/-- What arrives from the peer. -/
inductive PeerEvent
  /-- A byte of application data. -/
  | data (b : Byte)
  /-- A handshake message, which is processed on the way. -/
  | handshake
  /-- The alert that ends the peer's side. -/
  | closeNotify
  | fatalAlert (description : Byte)
  /-- A record that libssl refuses. -/
  | badRecord
  /-- The end of the transport. -/
  | eof
  deriving DecidableEq, Repr

namespace PeerEvent

/-- The peer's side ends without a `close_notify`: the transport ends, or a fatal alert comes. -/
def isBrokenEnd : PeerEvent → Bool
  | eof | fatalAlert _ => true
  | _ => false

/-- The peer's side ends. -/
def isEnd (e : PeerEvent) : Bool := e == closeNotify || e.isBrokenEnd

end PeerEvent

/-- What a call on an SSL object returns, writes to its buffer, puts into the error queue, and
leaves behind. -/
structure Outcome (σ : Type) where
  ret : ℤ
  out : List Byte := []
  errors : ErrorQueue := []
  ssl : σ

/-- libssl, over a type `σ` of SSL objects with their transport, and a type `τ` of what may happen
at the transport: bytes that arrive, bytes that are taken away, its end. -/
structure LibSsl (σ τ : Type) where
  /-- `SSL_do_handshake`, and with it `SSL_connect` and `SSL_accept`. -/
  doHandshake : σ → Outcome σ
  /-- `SSL_read`, into a buffer of a given size. -/
  read : σ → ℤ → Outcome σ
  /-- `SSL_write`, of a number of bytes of a buffer. -/
  write : σ → List Byte → ℤ → Outcome σ
  /-- `SSL_shutdown`. -/
  shutdown : σ → Outcome σ
  transport : σ → τ → σ
  /-- What `SSL_get_error` says about a return value when the error queue is empty. -/
  reason : σ → ℤ → SslError
  /-- What has arrived and was not processed yet. -/
  ahead : σ → List PeerEvent
  /-- How the peer's side ended, if that was processed. -/
  ended : σ → Option PeerEvent
  /-- What an event at the transport makes arrive. -/
  arrived : σ → τ → List PeerEvent

namespace LibSsl

variable {σ τ : Type} (S : LibSsl σ τ)

/-- What the next `SSL_read` comes upon, past handshake messages. -/
def meets (s : σ) : Option PeerEvent :=
  -- once the peer's side has ended, that is all that is left
  S.ended s <|> (S.ahead s).find? (· ≠ .handshake)

/-- A call takes what it processes from the front of what has arrived, and the peer's side has
ended only by something that was processed. -/
structure Processes (s s' : σ) : Prop where
  exists_ahead : ∃ processed, S.ahead s = processed ++ S.ahead s' ∧
    ∀ e, S.ended s' = some e → S.ended s = some e ∨ e ∈ processed

/-- The documented behaviour of libssl that the interface relies on. -/
structure Documented : Prop where
  doHandshake : ∀ s, S.Processes s (S.doHandshake s).ssl
  read : ∀ s n, S.Processes s (S.read s n).ssl
  write : ∀ s bs n, S.Processes s (S.write s bs n).ssl
  shutdown : ∀ s, S.Processes s (S.shutdown s).ssl
  ahead_transport : ∀ s t, S.ahead (S.transport s t) = S.ahead s ++ S.arrived s t
  ended_transport : ∀ s t, S.ended (S.transport s t) = S.ended s
  /-- A size that is no size is refused. -/
  read_neg : ∀ {s n}, n < 0 → (S.read s n).ret < 0
  /-- `SSL_read` returns 0 where the peer's side ends, in whichever way. -/
  read_eq_zero : ∀ {s n}, 0 < n → ((S.read s n).ret = 0 ↔ ∃ e ∈ S.meets s, e.isEnd = true)
  /-- Otherwise it returns the number of bytes read, or a negative number. -/
  length_read : ∀ {s n}, 0 < (S.read s n).ret → ((S.read s n).out.length : ℤ) = (S.read s n).ret
  /-- `SSL_ERROR_SSL` is for failures that the error queue explains. -/
  reason_ne_ssl : ∀ {s n}, S.reason s n ≠ .ssl

end LibSsl

/-- An endpoint of the component with its SSL object, and the error queue. -/
structure World (σ : Type) where
  ssl : σ
  handshakeDone : Bool := false
  queue : ErrorQueue := []

namespace World

variable {σ τ : Type} (S : LibSsl σ τ)

/-- The world after a call on the SSL object, which leaves its errors in the queue. -/
def after (w : World σ) (o : Outcome σ) : World σ :=
  { w with ssl := o.ssl, queue := w.queue ++ o.errors }

/-- `SSL_get_error`: where the queue is not empty, a call that did not succeed failed fatally. -/
def getError (w : World σ) (ret : ℤ) : SslError :=
  if 0 < ret then .none else if w.queue ≠ [] then .ssl else S.reason w.ssl ret

/-- `SSL_do_handshake`, which clears the queue first. -/
def sslDoHandshake (w : World σ) : ℤ × World σ :=
  ((S.doHandshake w.ssl).ret, { w with queue := [] }.after (S.doHandshake w.ssl))

/-- `SSL_read`. -/
def sslRead (w : World σ) (n : ℤ) : (ℤ × List Byte) × World σ :=
  (((S.read w.ssl n).ret, (S.read w.ssl n).out), w.after (S.read w.ssl n))

/-- `SSL_write`. -/
def sslWrite (w : World σ) (bs : List Byte) (n : ℤ) : ℤ × World σ :=
  ((S.write w.ssl bs n).ret, w.after (S.write w.ssl bs n))

/-- `SSL_shutdown`. -/
def sslShutdown (w : World σ) : ℤ × World σ :=
  ((S.shutdown w.ssl).ret, w.after (S.shutdown w.ssl))

end World

end OpenSSLWasm.Tls
