import OpenSSLWasm.Tls.Ssl

/-!
# TLS endpoints

The calls on connected sockets and on memory-BIO endpoints in `src/tls.c`, over a libssl given by
a `LibSsl`. The files of a pair, client and server, are copies of each other.

## Main definitions

* `TlsError`: what the calls report;
* `clientRead`, `memBioClientRead` and their companions: the calls;
* `Kind` and `Methods`: the kinds of endpoints, and the calls of each;
* `Action` and `step`: everything that may happen around one endpoint.
-/

namespace OpenSSLWasm.Tls

/-- `tls-error`, less the record that comes with a failed verification, which nothing here
reports. -/
inductive TlsError
  | badConfig
  | handshakeFailed
  | verifyFailed
  | alpnMismatch
  | sniMismatch
  | hostnameMismatch
  | protocolVersion
  | ioClosed
  | wouldBlock
  | internal (code : ℕ)
  deriving DecidableEq, Repr

section

variable {σ τ : Type} (S : LibSsl σ τ)

/-! ## Sockets -/

/-- The handshake in `connect`; a client that fails it does not come to be. -/
def clientConnect (w : World σ) : Except TlsError Unit × World σ :=
  let (rc, w) := w.sslDoHandshake S
  (if rc ≠ 1 then .error .handshakeFailed else .ok (), w)

/-- The handshake in `accept`, which prints the queue if it fails. -/
def serverListenerAccept (w : World σ) : Except TlsError Unit × World σ :=
  let (rc, w) := w.sslDoHandshake S
  if rc ≠ 1 then (.error .handshakeFailed, { w with queue := getErrors w.queue }) else (.ok (), w)

/-- Read from a socket. -/
def socketRead (maxBytes : BitVec 32) (w : World σ) : Except TlsError (List Byte) × World σ :=
  let ((n, out), w) := w.sslRead S maxBytes.toInt
  -- 0 counts as an empty list, whatever it stands for
  (if n < 0 then .error (.internal (w.getError S n).code) else .ok (out.take n.toNat), w)

/-- Write to a socket. -/
def socketWrite (data : ListU8) (w : World σ) : Except TlsError ℕ × World σ :=
  let (n, w) := w.sslWrite S data.bytes (cInt data.len)
  let e := w.getError S n
  -- here 0 is a failure
  (if n ≤ 0 then .error (if e = .zeroReturn then .ioClosed else .internal e.code)
    else .ok n.toNat, w)

def clientRead := socketRead S
def clientWrite := socketWrite S
def serverRead := socketRead S
def serverWrite := socketWrite S

/-! ## Memory BIOs -/

/-- Drive the handshake of a memory-BIO endpoint; unless it only wants I/O, a failure is printed
from the queue. -/
def memBioDoHandshake (w : World σ) : Except TlsError Unit × World σ :=
  let (rc, w) := w.sslDoHandshake S
  if rc = 1 then (.ok (), { w with handshakeDone := true })
  else if (w.getError S rc).isWant then (.error .wouldBlock, w)
  else (.error .handshakeFailed, { w with queue := getErrors w.queue })

/-- Read from a memory-BIO endpoint. -/
def memBioRead (maxBytes : BitVec 32) (w : World σ) : Except TlsError (List Byte) × World σ :=
  let ((n, out), w) := w.sslRead S maxBytes.toInt
  let e := w.getError S n
  -- the case of `zeroReturn` is never met: that comes with 0
  (if n < 0 then
      .error (if e.isWant then .wouldBlock
        else if e = .zeroReturn then .ioClosed else .internal e.code)
    else .ok (out.take n.toNat), w)

/-- Write to a memory-BIO endpoint. -/
def memBioWrite (data : ListU8) (w : World σ) : Except TlsError ℕ × World σ :=
  if data.len = 0 then (.ok 0, w)
  else
    let (n, w) := w.sslWrite S data.bytes (cInt data.len)
    let e := w.getError S n
    (if n ≤ 0 then .error (if e.isWant then .wouldBlock else .internal e.code)
      else .ok n.toNat, w)

/-- Shut down a memory-BIO endpoint. -/
def memBioShutdown (w : World σ) : Except TlsError Unit × World σ :=
  -- 0 means that the peer's `close_notify` is still to come
  let (rc, w) := w.sslShutdown S
  let e := w.getError S rc
  (if rc < 0 then .error (if e.isWant then .wouldBlock else .internal e.code) else .ok (), w)

def memBioClientDoHandshake := memBioDoHandshake S
def memBioClientRead := memBioRead S
def memBioClientWrite := memBioWrite S
def memBioClientShutdown := memBioShutdown S
def memBioServerDoHandshake := memBioDoHandshake S
def memBioServerRead := memBioRead S
def memBioServerWrite := memBioWrite S
def memBioServerShutdown := memBioShutdown S

/-- The SSL object goes with the socket when `close` consumes the endpoint. -/
def socketClose (w : World σ) : Except TlsError Unit × World σ :=
  let (_, w) := w.sslShutdown S
  (.ok (), w)

/-! ## Kinds of endpoints -/

/-- The kinds of TLS endpoints. -/
inductive Kind
  | client
  | server
  | memBioClient
  | memBioServer
  deriving DecidableEq, Repr

/-- What can be done with an endpoint. -/
structure Methods (σ : Type) where
  handshake : World σ → Except TlsError Unit × World σ
  read : BitVec 32 → World σ → Except TlsError (List Byte) × World σ
  write : ListU8 → World σ → Except TlsError ℕ × World σ
  shutdown : World σ → Except TlsError Unit × World σ

def Kind.methods : Kind → Methods σ
  | client => ⟨clientConnect S, clientRead S, clientWrite S, socketClose S⟩
  | server => ⟨serverListenerAccept S, serverRead S, serverWrite S, socketClose S⟩
  | memBioClient => ⟨memBioClientDoHandshake S, memBioClientRead S, memBioClientWrite S,
      memBioClientShutdown S⟩
  | memBioServer => ⟨memBioServerDoHandshake S, memBioServerRead S, memBioServerWrite S,
      memBioServerShutdown S⟩

end

/-! ## Everything that may happen -/

/-- Something that happens: a call on the endpoint, an event at its transport, or what the rest of
the component does to the error queue. -/
inductive Action (τ : Type)
  | handshake
  | read (maxBytes : BitVec 32)
  | write (data : ListU8)
  | shutdown
  | transport (t : τ)
  /-- Another interface fails, and leaves its errors in the queue. -/
  | otherFails (errors : ErrorQueue)
  | popError
  | clearErrors
  | drainErrors

/-- What a call answers. -/
inductive Answer
  | done (r : Except TlsError Unit)
  | bytes (r : Except TlsError (List Byte))
  | written (r : Except TlsError ℕ)
  | errors (es : List ErrorInfo)
  | none
  deriving DecidableEq

section

variable {σ τ : Type} (S : LibSsl σ τ) (T : ErrorStrings)

/-- What happens in one step, and the answer if it was a call. -/
def step (k : Kind) (w : World σ) : Action τ → Answer × World σ
  | .handshake => (.done ((k.methods S).handshake w).1, ((k.methods S).handshake w).2)
  | .read maxBytes =>
    (.bytes ((k.methods S).read maxBytes w).1, ((k.methods S).read maxBytes w).2)
  | .write data => (.written ((k.methods S).write data w).1, ((k.methods S).write data w).2)
  | .shutdown => (.done ((k.methods S).shutdown w).1, ((k.methods S).shutdown w).2)
  | .transport t => (.none, { w with ssl := S.transport w.ssl t })
  | .otherFails errors => (.none, { w with queue := w.queue ++ errors })
  | .popError => (.errors (OpenSSLWasm.popError T w.queue).1.toList,
      { w with queue := (OpenSSLWasm.popError T w.queue).2 })
  | .clearErrors => (.none, { w with queue := OpenSSLWasm.clearErrors w.queue })
  | .drainErrors => (.errors (OpenSSLWasm.drainErrors T w.queue).1,
      { w with queue := (OpenSSLWasm.drainErrors T w.queue).2 })

end

/-! ## What the methods do to the SSL object -/

section

variable {σ τ : Type} {S : LibSsl σ τ} (k : Kind) (w : World σ)

/-- Every kind of endpoint reads in the same way, but for how it reports a failure. -/
theorem methods_read (maxBytes : BitVec 32) :
    let o := S.read w.ssl maxBytes.toInt
    ((k.methods S).read maxBytes w).2.ssl = o.ssl ∧
      (0 ≤ o.ret → ((k.methods S).read maxBytes w).1 = .ok (o.out.take o.ret.toNat)) ∧
      (o.ret < 0 → ∃ e, ((k.methods S).read maxBytes w).1 = .error e) := by
  intro o
  -- client and server share their code, for sockets and for memory BIOs
  have hsocket : (socketRead S maxBytes w).2.ssl = o.ssl ∧
      (0 ≤ o.ret → (socketRead S maxBytes w).1 = .ok (o.out.take o.ret.toNat)) ∧
      (o.ret < 0 → ∃ e, (socketRead S maxBytes w).1 = .error e) := by
    by_cases hret : o.ret < 0
    · simp [socketRead, World.sslRead, World.after, o, hret, Int.not_le.mpr hret]
    · simp [socketRead, World.sslRead, World.after, o, hret]
  have hmemBio : (memBioRead S maxBytes w).2.ssl = o.ssl ∧
      (0 ≤ o.ret → (memBioRead S maxBytes w).1 = .ok (o.out.take o.ret.toNat)) ∧
      (o.ret < 0 → ∃ e, (memBioRead S maxBytes w).1 = .error e) := by
    by_cases hret : o.ret < 0
    · simp [memBioRead, World.sslRead, World.after, o, hret, Int.not_le.mpr hret]
    · simp [memBioRead, World.sslRead, World.after, o, hret]
  cases k with
  | client => exact hsocket
  | server => exact hsocket
  | memBioClient => exact hmemBio
  | memBioServer => exact hmemBio

/-- The other calls leave behind what libssl does, if they call it at all. -/
theorem methods_handshake_ssl :
    ((k.methods S).handshake w).2.ssl = (S.doHandshake w.ssl).ssl := by
  have hmemBio : (memBioDoHandshake S w).2.ssl = (S.doHandshake w.ssl).ssl := by
    unfold memBioDoHandshake
    dsimp only [World.sslDoHandshake, World.after]
    split
    · rfl
    · split <;> rfl
  cases k with
  | client => rfl
  | server =>
    show (serverListenerAccept S w).2.ssl = (S.doHandshake w.ssl).ssl
    unfold serverListenerAccept
    dsimp only [World.sslDoHandshake, World.after]
    split <;> rfl
  | memBioClient => exact hmemBio
  | memBioServer => exact hmemBio

theorem methods_write_ssl (data : ListU8) :
    ((k.methods S).write data w).2.ssl = w.ssl ∨
      ((k.methods S).write data w).2.ssl = (S.write w.ssl data.bytes (cInt data.len)).ssl := by
  have hmemBio : (memBioWrite S data w).2.ssl = w.ssl ∨
      (memBioWrite S data w).2.ssl = (S.write w.ssl data.bytes (cInt data.len)).ssl := by
    unfold memBioWrite
    split_ifs
    · exact Or.inl rfl
    · exact Or.inr rfl
  cases k with
  | client => exact Or.inr rfl
  | server => exact Or.inr rfl
  | memBioClient => exact hmemBio
  | memBioServer => exact hmemBio

theorem methods_shutdown_ssl :
    ((k.methods S).shutdown w).2.ssl = (S.shutdown w.ssl).ssl := by
  cases k <;> rfl

end

end OpenSSLWasm.Tls
