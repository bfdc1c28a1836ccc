import OpenSSLWasm.Lib.Transcript
import OpenSSLWasm.Tls.Endpoint
import OpenSSLWasm.Tls.Reference

/-!
# How the end of the peer's side is reported

`read` returns an empty list on a clean close. `SSL_read` returns 0 there, but also where the
transport ends early or a fatal alert arrives, and the four `read` functions only look at the sign.

## Main definitions

* `Observed` and `observe`: a run together with everything that arrived in it;
* `EndReported`: the reads of a run tell a clean close from any other end.

## Main results

* `Observed.Sound.step`: what an endpoint has processed has arrived;
* `endReported_iff`: a run's reads are right exactly if none of them, into a buffer whose size is
  an `int`, comes upon an end other than a clean close.
-/

namespace OpenSSLWasm.Tls

variable {σ τ : Type}

/-! ## Runs -/

/-- A world, and everything that has arrived from the peer. -/
structure Observed (σ : Type) extends World σ where
  received : List PeerEvent := []

section

variable (S : LibSsl σ τ) (T : ErrorStrings) (k : Kind)

/-- What an action makes arrive. -/
def arrivals (w : World σ) : Action τ → List PeerEvent
  | .transport t => S.arrived w.ssl t
  | _ => []

/-- One step, with what arrives in it. -/
def observedStep (o : Observed σ) (a : Action τ) : Answer × Observed σ :=
  ((step S T k o.toWorld a).1,
    { toWorld := (step S T k o.toWorld a).2, received := o.received ++ arrivals S o.toWorld a })

/-- The world after a run on a new SSL object. -/
def observe (s : σ) (actions : List (Action τ)) : Observed σ :=
  (Transcript.run (observedStep S T k) { ssl := s } actions).2

/-- Nothing has arrived at a new SSL object. -/
structure LibSsl.Fresh (s : σ) : Prop where
  ahead : S.ahead s = []
  ended : S.ended s = none

/-- What waits to be processed has arrived, and so has what ended the peer's side. -/
structure Observed.Sound (o : Observed σ) : Prop where
  ahead : ∀ e ∈ S.ahead o.ssl, e ∈ o.received
  ended : ∀ e, S.ended o.ssl = some e → e ∈ o.received

/-- Every read of the run for at least one byte returns an empty list only if a `close_notify` has
arrived, and an error where the peer's side ends otherwise. -/
def EndReported (s : σ) (actions : List (Action τ)) : Prop :=
  ∀ before maxBytes after, actions = before ++ .read maxBytes :: after → 0 < maxBytes.toNat →
    let o := observe S T k s before
    let r := ((k.methods S).read maxBytes o.toWorld).1
    (r = .ok [] → .closeNotify ∈ o.received) ∧
      ∀ e ∈ S.meets o.ssl, e.isBrokenEnd = true → ∃ err, r = .error err

end

/-! ## What has been processed has arrived -/

section

variable {S : LibSsl σ τ} {T : ErrorStrings} {k : Kind}

/-- A step is an event at the transport, or processes what has arrived. -/
theorem step_processes (hS : S.Documented) (T : ErrorStrings) (k : Kind) (w : World σ)
    (a : Action τ) :
    (∃ t, a = .transport t ∧ (step S T k w a).2.ssl = S.transport w.ssl t) ∨
      S.Processes w.ssl (step S T k w a).2.ssl := by
  have hsame : S.Processes w.ssl w.ssl := LibSsl.Processes.refl S w.ssl
  cases a with
  | handshake =>
    right
    rw [show (step S T k w .handshake).2.ssl = _ from methods_handshake_ssl k w]
    exact hS.doHandshake w.ssl
  | read maxBytes =>
    right
    rw [show (step S T k w (.read maxBytes)).2.ssl = _ from (methods_read k w maxBytes).1]
    exact hS.read w.ssl maxBytes.toInt
  | write data =>
    right
    rcases methods_write_ssl (S := S) k w data with h | h
    · rw [show (step S T k w (.write data)).2.ssl = _ from h]
      exact hsame
    · rw [show (step S T k w (.write data)).2.ssl = _ from h]
      exact hS.write w.ssl data.bytes (cInt data.len)
  | shutdown =>
    right
    rw [show (step S T k w .shutdown).2.ssl = _ from methods_shutdown_ssl k w]
    exact hS.shutdown w.ssl
  | transport t => exact Or.inl ⟨t, rfl, rfl⟩
  | otherFails errors => exact Or.inr hsame
  | popError => exact Or.inr hsame
  | clearErrors => exact Or.inr hsame
  | drainErrors => exact Or.inr hsame

namespace Observed

theorem Sound.of_processes {o : Observed σ} (ho : o.Sound S) {w : World σ}
    (h : S.Processes o.ssl w.ssl) {received : List PeerEvent}
    (hreceived : o.received ⊆ received) : ({ toWorld := w, received } : Observed σ).Sound S := by
  -- what is still ahead was ahead, and what ended the peer's side was among what was processed
  obtain ⟨⟨processed, hahead, hended⟩⟩ := h
  constructor
  · intro e he
    refine hreceived (ho.ahead e ?_)
    rw [hahead]
    exact List.mem_append_right _ he
  · intro e he
    rcases hended e he with he | he
    · exact hreceived (ho.ended e he)
    · refine hreceived (ho.ahead e ?_)
      rw [hahead]
      exact List.mem_append_left _ he

/-- One step keeps what was processed within what has arrived. -/
theorem Sound.step (hS : S.Documented) {o : Observed σ} (ho : o.Sound S) (a : Action τ) :
    (observedStep S T k o a).2.Sound S := by
  have hsub : o.received ⊆ o.received ++ arrivals S o.toWorld a := List.subset_append_left _ _
  obtain ⟨t, rfl, hssl⟩ | hprocesses := step_processes hS T k o.toWorld a
  · -- only here does anything arrive
    constructor
    · intro e (he : e ∈ S.ahead (S.transport o.ssl t))
      rw [hS.ahead_transport] at he
      rcases List.mem_append.mp he with he | he
      · exact hsub (ho.ahead e he)
      · exact List.mem_append_right _ he
    · intro e (he : S.ended (S.transport o.ssl t) = some e)
      rw [hS.ended_transport] at he
      exact hsub (ho.ended e he)
  · exact ho.of_processes hprocesses hsub

/-- So does a run. -/
theorem sound_observe (hS : S.Documented) {s : σ} (hs : S.Fresh s) (actions : List (Action τ)) :
    (observe S T k s actions).Sound S := by
  refine Transcript.run_preserves (I := fun o : Observed σ => o.Sound S)
    (fun o a ho => ho.step hS a) ⟨?_, ?_⟩ actions
  · intro e he
    rw [hs.ahead] at he
    cases he
  · intro e he
    rw [hs.ended] at he
    cases he

/-- What a read comes upon has arrived. -/
theorem Sound.meets_mem {o : Observed σ} (ho : o.Sound S) {e : PeerEvent}
    (he : e ∈ S.meets o.ssl) : e ∈ o.received := by
  cases hended : S.ended o.ssl with
  | some e' =>
    rw [LibSsl.meets, hended] at he
    exact ho.ended e (hended.trans he)
  | none =>
    rw [LibSsl.meets, hended] at he
    exact ho.ahead e (List.mem_of_find?_eq_some he)

end Observed

/-! ## Reads -/

/-- A read for at least one byte returns an empty list exactly where the peer's side ends. -/
theorem read_eq_ok_nil_iff (hS : S.Documented) (k : Kind) (w : World σ) {maxBytes : BitVec 32}
    (hpos : 0 < maxBytes.toInt) :
    ((k.methods S).read maxBytes w).1 = .ok [] ↔ ∃ e ∈ S.meets w.ssl, e.isEnd = true := by
  obtain ⟨-, hok, herr⟩ := methods_read (S := S) k w maxBytes
  rw [← hS.read_eq_zero hpos]
  constructor
  · intro h
    rcases Int.lt_trichotomy (S.read w.ssl maxBytes.toInt).ret 0 with hret | hret | hret
    · obtain ⟨e, he⟩ := herr hret
      rw [he] at h
      cases h
    · exact hret
    · -- bytes were read, and the list has as many
      rw [hok hret.le] at h
      have hlen := hS.length_read hret
      have hnil := congrArg List.length (Except.ok.inj h)
      rw [List.length_take, List.length_nil] at hnil
      omega
  · intro hret
    rw [hok hret.ge, hret, Int.toNat_zero, List.take_zero]

/-- A size from `2 ^ 31` on becomes a negative `int`, which `SSL_read` refuses. -/
theorem read_eq_error_of_neg (hS : S.Documented) (k : Kind) (w : World σ) {maxBytes : BitVec 32}
    (hneg : maxBytes.toInt < 0) : ∃ e, ((k.methods S).read maxBytes w).1 = .error e :=
  (methods_read k w maxBytes).2.2 (hS.read_neg hneg)

/-- For every kind of endpoint, the reads of a run report the end of the peer's side as they should
exactly if none of them, for fewer than `2 ^ 31` bytes, comes upon the end of the transport or a
fatal alert. -/
theorem endReported_iff (hS : S.Documented) (T : ErrorStrings) (k : Kind) {s : σ} (hs : S.Fresh s)
    (actions : List (Action τ)) :
    EndReported S T k s actions ↔
      ∀ before maxBytes after, actions = before ++ .read maxBytes :: after →
        0 < maxBytes.toNat → maxBytes.toNat < 2 ^ 31 →
        ∀ e ∈ S.meets (observe S T k s before).ssl, e.isBrokenEnd = false := by
  -- the size that `SSL_read` gets is an `int`
  have hsize : ∀ maxBytes : BitVec 32, 0 < maxBytes.toNat →
      (maxBytes.toNat < 2 ^ 31 → 0 < maxBytes.toInt) ∧
        (¬maxBytes.toNat < 2 ^ 31 → maxBytes.toInt < 0) := by
    intro maxBytes hpos
    rw [BitVec.toInt_eq_toNat_cond]
    constructor <;> intro h <;> split <;> omega
  refine forall_congr' fun before => forall_congr' fun maxBytes => forall_congr' fun after =>
    imp_congr_right fun _ => imp_congr_right fun hpos => ?_
  have hsound : (observe S T k s before).Sound S := Observed.sound_observe hS hs before
  constructor
  · -- such an end would have to be an error, but is reported as an empty list
    rintro ⟨-, herr⟩ hlt e he
    rw [← Bool.not_eq_true]
    intro hbroken
    obtain ⟨err, hr⟩ := herr e he hbroken
    have hnil := (read_eq_ok_nil_iff hS k (observe S T k s before).toWorld
      ((hsize maxBytes hpos).1 hlt)).mpr ⟨e, he, by simp [PeerEvent.isEnd, hbroken]⟩
    rw [hnil] at hr
    cases hr
  · intro hclean
    by_cases hlt : maxBytes.toNat < 2 ^ 31
    · -- an empty list means an end, which is clean and has arrived
      refine ⟨fun hr => ?_, fun e he hbroken => ?_⟩
      · obtain ⟨e, he, hend⟩ := (read_eq_ok_nil_iff hS k _ ((hsize maxBytes hpos).1 hlt)).mp hr
        have hmem := hsound.meets_mem he
        rw [PeerEvent.isEnd, hclean hlt e he, Bool.or_false, beq_iff_eq] at hend
        rwa [hend] at hmem
      · rw [hclean hlt e he] at hbroken
        cases hbroken
    · -- a size that is too large is an error whatever has arrived
      obtain ⟨err, hr⟩ := read_eq_error_of_neg hS k (observe S T k s before).toWorld
        ((hsize maxBytes hpos).2 hlt)
      refine ⟨fun h => ?_, fun _ _ _ => ⟨err, hr⟩⟩
      rw [hr] at h
      cases h

end

/-- No texts for any error. -/
def noStrings : ErrorStrings where
  lib _ := none
  reason _ := none

theorem fresh_reference : referenceSsl.Fresh {} := ⟨rfl, rfl⟩

/-- A memory-BIO client whose peer closes: the read after it is right. -/
theorem endReported_closeNotify :
    EndReported referenceSsl noStrings .memBioClient {} [.transport .closeNotify, .read 16] := by
  refine (endReported_iff referenceSsl_documented noStrings .memBioClient fresh_reference _).mpr ?_
  intro before maxBytes after hactions _ _ e he
  -- the read is the second action, and comes upon the first
  match before, hactions with
  | [_], hactions =>
    obtain ⟨rfl, -⟩ := List.cons.inj hactions
    obtain rfl : PeerEvent.closeNotify = e := Option.some.inj he
    rfl
  | _ :: _ :: before, hactions =>
    have hlen := congrArg List.length hactions
    simp at hlen

/-- A client whose transport ends without a `close_notify`: the read after it returns an empty
list. -/
theorem not_endReported_eof :
    ¬EndReported referenceSsl noStrings .client {} [.transport .eof, .read 16] := by
  intro h
  obtain ⟨-, herr⟩ := h [.transport .eof] 16 [] rfl (by decide)
  obtain ⟨err, hr⟩ := herr .eof rfl rfl
  have hok : (((Kind.client.methods referenceSsl).read 16
      (observe referenceSsl noStrings .client {} [.transport .eof]).toWorld).1) = .ok [] := rfl
  rw [hok] at hr
  cases hr

end OpenSSLWasm.Tls
