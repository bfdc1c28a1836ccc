import OpenSSLWasm.Tls.Truncation

/-!
# What the error queue does to memory-BIO endpoints

`SSL_get_error` takes any entry of the error queue for the cause of the failure it is asked about.
The handshake clears the queue first, the other calls do not, so that what other interfaces left in
it decides how a harmless failure is reported.

## Main definitions

* `Call`: the calls on a memory-BIO endpoint, with the outcome of each in libssl;
* `Unaffected`: two worlds with the same SSL object answer a call alike, and as they should;
* `Undisturbed`: a call whose answer the queue cannot spoil;
* `isolatedStep`: an endpoint on its own, without an error queue.

## Main results

* `answer_eq`: the answer of each call, from its outcome and the queue before it;
* `unaffected_iff`: two runs that come to the same SSL object answer the next call alike exactly
  if it is undisturbed in both, or fails fatally in both;
* `undisturbed_of_emptied`: what makes sure that the next call is undisturbed;
* `answers_eq_isolated`: a run of undisturbed calls answers as the endpoint would on its own.
-/

namespace OpenSSLWasm.Tls

variable {σ τ : Type}

/-- The endpoint has memory BIOs. -/
def Kind.isMemBio : Kind → Bool
  | memBioClient | memBioServer => true
  | _ => false

/-! ## Calls -/

/-- A call on a memory-BIO endpoint. -/
inductive Call
  | doHandshake
  | read (maxBytes : BitVec 32)
  | write (data : ListU8)
  | shutdown

namespace Call

/-- The call as something that happens. -/
def action : Call → Action τ
  | doHandshake => .handshake
  | read maxBytes => .read maxBytes
  | write data => .write data
  | shutdown => .shutdown

/-- What libssl does. -/
def outcome (S : LibSsl σ τ) (s : σ) : Call → Outcome σ
  | doHandshake => S.doHandshake s
  | read maxBytes => S.read s maxBytes.toInt
  | write data => S.write s data.bytes (cInt data.len)
  | shutdown => S.shutdown s

/-- The return values about which `SSL_get_error` is asked. Writing nothing does not call
libssl. -/
def failed (ret : ℤ) : Call → Bool
  | doHandshake => ret ≠ 1
  | read _ => ret < 0
  | write data => data.len ≠ 0 ∧ ret ≤ 0
  | shutdown => ret < 0

/-- The answer to a call that succeeded. -/
def success (o : Outcome σ) : Call → Answer
  | doHandshake => .done (.ok ())
  | read _ => .bytes (.ok (o.out.take o.ret.toNat))
  | write data => .written (.ok (if data.len = 0 then 0 else o.ret.toNat))
  | shutdown => .done (.ok ())

/-- An answer that is an error. -/
def error (err : TlsError) : Call → Answer
  | doHandshake => .done (.error err)
  | read _ => .bytes (.error err)
  | write _ => .written (.error err)
  | shutdown => .done (.error err)

/-- The error for what `SSL_get_error` says about a failure that is not for want of I/O. -/
def fatalError (e : SslError) : Call → TlsError
  | doHandshake => .handshakeFailed
  | read _ => if e = .zeroReturn then .ioClosed else .internal e.code
  | write _ => .internal e.code
  | shutdown => .internal e.code

/-- The answer to a call that failed. -/
def failure (e : SslError) (call : Call) : Answer :=
  call.error (if e.isWant then .wouldBlock else call.fatalError e)

/-- The queue in which libssl leaves its errors. -/
def queueBefore (q : ErrorQueue) : Call → ErrorQueue
  | doHandshake => []
  | _ => q

end Call

section

variable (S : LibSsl σ τ) (T : ErrorStrings) (k : Kind)

/-- What an endpoint answers. -/
def answer (w : World σ) (call : Call) : Answer := (step S T k w call.action).1

/-- The SSL object only wants I/O: libssl fails, leaves no error, and says so. -/
def Call.NeedsIO (s : σ) (call : Call) : Prop :=
  let o := call.outcome S s
  call.failed o.ret = true ∧ o.ret ≤ 0 ∧ o.errors = [] ∧ (S.reason o.ssl o.ret).isWant = true

/-- Two worlds answer a call alike, with would-block if the SSL object only wants I/O. -/
def Unaffected (w₁ w₂ : World σ) (call : Call) : Prop :=
  answer S T k w₁ call = answer S T k w₂ call ∧
    (call.NeedsIO S w₁.ssl → answer S T k w₁ call = call.error .wouldBlock) ∧
    (call.NeedsIO S w₂.ssl → answer S T k w₂ call = call.error .wouldBlock)

/-- libssl finds its own explanation in the queue, or none: the call succeeds, leaves an error
itself, or starts with an empty queue. -/
def Undisturbed (w : World σ) (call : Call) : Prop :=
  call = .doHandshake ∨ call.failed (call.outcome S w.ssl).ret = false ∨
    (call.outcome S w.ssl).errors ≠ [] ∨ w.queue = []

end

/-! ## Answers -/

section

variable {S : LibSsl σ τ} {T : ErrorStrings} {k : Kind}

/-- The answer depends on the outcome, and if that is a failure, on whether there are errors in the
queue. -/
theorem answer_eq (hk : k.isMemBio = true) (w : World σ) (call : Call) :
    answer S T k w call =
      let o := call.outcome S w.ssl
      if call.failed o.ret then
        call.failure (if 0 < o.ret then .none
          else if call.queueBefore w.queue ++ o.errors ≠ [] then .ssl else S.reason o.ssl o.ret)
      else call.success o := by
  have hanswer : answer S T k w call = answer S T .memBioClient w call := by
    cases k with
    | client => cases hk
    | server => cases hk
    | memBioClient => rfl
    | memBioServer => cases call <;> rfl
  rw [hanswer]
  -- each method is the test for failure around a success and a failure
  cases call with
  | doHandshake =>
    show Answer.done (memBioDoHandshake S w).1 = _
    unfold memBioDoHandshake
    dsimp only [World.sslDoHandshake, World.after, Call.outcome, Call.queueBefore]
    by_cases hret : (S.doHandshake w.ssl).ret = 1
    · simp [hret, Call.failed, Call.success]
    · have herror : ∀ (e : SslError) (w₁ w₂ : World σ),
          Answer.done (if e.isWant then ((.error .wouldBlock : Except TlsError Unit), w₁)
            else (.error .handshakeFailed, w₂)).1 = Call.failure e .doHandshake := by
        intro e w₁ w₂
        unfold Call.failure
        split <;> rfl
      simp only [hret, if_false, Call.failed, ne_eq, not_false_eq_true, decide_true, if_true]
      exact herror _ _ _
  | read maxBytes =>
    show Answer.bytes (memBioRead S maxBytes w).1 = _
    unfold memBioRead
    dsimp only [World.sslRead, World.after, Call.outcome, Call.queueBefore]
    by_cases hret : (S.read w.ssl maxBytes.toInt).ret < 0
    · simp only [hret, if_true, Call.failed, decide_true]
      rfl
    · simp [hret, Call.failed, Call.success]
  | write data =>
    show Answer.written (memBioWrite S data w).1 = _
    unfold memBioWrite
    dsimp only [World.sslWrite, World.after, Call.outcome, Call.queueBefore]
    by_cases hlen : data.len = 0
    · simp [hlen, Call.failed, Call.success]
    · by_cases hret : (S.write w.ssl data.bytes (cInt data.len)).ret ≤ 0
      · simp only [hlen, hret, if_true, if_false, Call.failed, ne_eq, not_false_eq_true, and_self,
          decide_true]
        rfl
      · simp [hlen, hret, Call.failed, Call.success]
  | shutdown =>
    show Answer.done (memBioShutdown S w).1 = _
    unfold memBioShutdown
    dsimp only [World.sslShutdown, World.after, Call.outcome, Call.queueBefore]
    by_cases hret : (S.shutdown w.ssl).ret < 0
    · simp only [hret, if_true, Call.failed, decide_true]
      rfl
    · simp [hret, Call.failed, Call.success]

/-! ## When the queue does not matter -/

namespace Call

/-- No other reason for a failure is reported like a fatal one. -/
theorem failure_eq_failure_ssl {e : SslError} {call : Call} (hcall : call ≠ .doHandshake)
    (h : call.failure e = call.failure .ssl) : e = .ssl := by
  cases call with
  | doHandshake => exact absurd rfl hcall
  | read maxBytes => cases e <;> first | rfl | cases h
  | write data => cases e <;> first | rfl | cases h
  | shutdown => cases e <;> first | rfl | cases h

/-- A call other than the handshake asks `SSL_get_error` only about values that are not
positive. -/
theorem ret_nonpos_of_failed {call : Call} (hcall : call ≠ .doHandshake) {ret : ℤ}
    (h : call.failed ret = true) : ret ≤ 0 := by
  cases call with
  | doHandshake => exact absurd rfl hcall
  | read maxBytes => exact (of_decide_eq_true h).le
  | write data => exact (of_decide_eq_true h).2
  | shutdown => exact (of_decide_eq_true h).le

end Call

/-- The endpoint's own answer: what it says where the queue is empty. -/
def ownAnswer (S : LibSsl σ τ) (s : σ) (call : Call) : Answer :=
  let o := call.outcome S s
  if call.failed o.ret then
    call.failure (if 0 < o.ret then .none
      else if o.errors ≠ [] then .ssl else S.reason o.ssl o.ret)
  else call.success o

/-- An undisturbed call gets the endpoint's own answer. -/
theorem answer_of_undisturbed (hk : k.isMemBio = true) {w : World σ} {call : Call}
    (h : Undisturbed S w call) : answer S T k w call = ownAnswer S w.ssl call := by
  rw [answer_eq hk, ownAnswer]
  rcases h with rfl | h | h | h
  · rfl
  · simp only [h, Bool.false_eq_true, if_false]
  · have happend : call.queueBefore w.queue ++ (call.outcome S w.ssl).errors ≠ [] := by
      simp [h]
    simp only [happend, h, ne_eq, not_false_eq_true, if_true]
  · have hbefore : call.queueBefore w.queue = [] := by
      rw [h]
      cases call <;> rfl
    simp only [hbefore, List.nil_append]

/-- Any other call is reported as a fatal failure. -/
theorem answer_of_not_undisturbed (hk : k.isMemBio = true) {w : World σ} {call : Call}
    (h : ¬Undisturbed S w call) :
    answer S T k w call = call.failure .ssl ∧
      ownAnswer S w.ssl call =
        call.failure (S.reason (call.outcome S w.ssl).ssl (call.outcome S w.ssl).ret) := by
  obtain ⟨hcall, h⟩ := not_or.mp h
  obtain ⟨hfailed, h⟩ := not_or.mp h
  obtain ⟨herrors, hqueue⟩ := not_or.mp h
  rw [Bool.not_eq_false] at hfailed
  rw [not_not] at herrors
  have hret := Int.not_lt.mpr (Call.ret_nonpos_of_failed hcall hfailed)
  have hbefore : call.queueBefore w.queue = w.queue := by
    cases call with
    | doHandshake => exact absurd rfl hcall
    | _ => rfl
  rw [answer_eq hk, ownAnswer]
  simp [hfailed, hret, herrors, hbefore, hqueue]

/-- The queue spoils every answer to a disturbed call. -/
theorem answer_eq_ownAnswer_iff (hS : S.Documented) (hk : k.isMemBio = true) {w : World σ}
    {call : Call} : answer S T k w call = ownAnswer S w.ssl call ↔ Undisturbed S w call := by
  refine ⟨fun h => ?_, answer_of_undisturbed hk⟩
  by_contra hdisturbed
  -- the answer would say that libssl gave `SSL_ERROR_SSL` as its own reason
  obtain ⟨hanswer, hown⟩ := answer_of_not_undisturbed (T := T) hk hdisturbed
  rw [hanswer, hown] at h
  exact hS.reason_ne_ssl (Call.failure_eq_failure_ssl (fun hc => hdisturbed (Or.inl hc)) h.symm)

/-- Where the SSL object only wants I/O, the endpoint's own answer is would-block. -/
theorem ownAnswer_of_needsIO {s : σ} {call : Call} (h : call.NeedsIO S s) :
    ownAnswer S s call = call.error .wouldBlock := by
  obtain ⟨hfailed, hret, herrors, hwant⟩ := h
  rw [ownAnswer]
  simp only [hfailed, if_true, Int.not_lt.mpr hret, if_false, herrors, ne_eq, not_true_eq_false]
  rw [Call.failure, if_pos hwant]

/-- The world after a run. -/
def after (S : LibSsl σ τ) (T : ErrorStrings) (k : Kind) (s : σ) (actions : List (Action τ)) :
    World σ :=
  (Transcript.run (step S T k) { ssl := s } actions).2

/-- Where the handshake of a memory-BIO endpoint fails for good, its errors were printed. -/
theorem queue_of_handshakeFailed (hk : k.isMemBio = true) {w : World σ}
    (h : answer S T k w .doHandshake = .done (.error .handshakeFailed)) :
    (step S T k w .handshake).2.queue = [] := by
  have hmemBio : (memBioDoHandshake S w).1 = .error .handshakeFailed →
      (memBioDoHandshake S w).2.queue = [] := by
    unfold memBioDoHandshake
    dsimp only
    split_ifs
    · rintro ⟨⟩
    · rintro ⟨⟩
    · exact fun _ => getErrors_eq _
  cases k with
  | client => cases hk
  | server => cases hk
  | memBioClient => exact hmemBio (Answer.done.inj h)
  | memBioServer => exact hmemBio (Answer.done.inj h)

/-- After the queue was drained or cleared, or a handshake failed, the next call is undisturbed. -/
theorem undisturbed_of_emptied (hk : k.isMemBio = true) {w : World σ} {a : Action τ}
    (ha : a = .drainErrors ∨ a = .clearErrors ∨
      a = .handshake ∧ answer S T k w .doHandshake = .done (.error .handshakeFailed))
    (call : Call) : Undisturbed S (step S T k w a).2 call := by
  refine Or.inr (Or.inr (Or.inr ?_))
  rcases ha with rfl | rfl | ⟨rfl, hanswer⟩
  · show (OpenSSLWasm.drainErrors T w.queue).2 = []
    rw [drainErrors_eq]
  · rfl
  · exact queue_of_handshakeFailed hk hanswer

/-! ## Whole runs -/

/-- The endpoint or its transport is concerned. -/
def Action.isTls : Action τ → Bool
  | .handshake | .read _ | .write _ | .shutdown | .transport _ => true
  | _ => false

/-- What the action does on an endpoint of its own, without an error queue. -/
def isolatedStep (S : LibSsl σ τ) (s : σ) : Action τ → Answer × σ
  | .handshake => (ownAnswer S s .doHandshake, (S.doHandshake s).ssl)
  | .read maxBytes => (ownAnswer S s (.read maxBytes), (S.read s maxBytes.toInt).ssl)
  | .write data =>
    (ownAnswer S s (.write data),
      if data.len = 0 then s else (S.write s data.bytes (cInt data.len)).ssl)
  | .shutdown => (ownAnswer S s .shutdown, (S.shutdown s).ssl)
  | .transport t => (.none, S.transport s t)
  | _ => (.none, s)

/-- Every call of the run is undisturbed. -/
def AllUndisturbed (S : LibSsl σ τ) (T : ErrorStrings) (k : Kind) (w : World σ)
    (actions : List (Action τ)) : Prop :=
  ∀ before call after, actions = before ++ Call.action call :: after →
    Undisturbed S (Transcript.run (step S T k) w before).2 call

/-- An action leaves the SSL object as it would on an endpoint of its own. -/
theorem step_ssl (hk : k.isMemBio = true) (w : World σ) (a : Action τ) :
    (step S T k w a).2.ssl = (isolatedStep S w.ssl a).2 := by
  cases a with
  | handshake => exact methods_handshake_ssl k w
  | read maxBytes => exact (methods_read k w maxBytes).1
  | write data =>
    have hwrite : (memBioWrite S data w).2.ssl = (isolatedStep S w.ssl (.write data)).2 := by
      unfold memBioWrite isolatedStep
      dsimp only
      split <;> rfl
    cases k with
    | client => cases hk
    | server => cases hk
    | memBioClient => exact hwrite
    | memBioServer => exact hwrite
  | shutdown => exact methods_shutdown_ssl k w
  | transport t => rfl
  | otherFails errors => rfl
  | popError => rfl
  | clearErrors => rfl
  | drainErrors => rfl

/-- An undisturbed action of the endpoint, or of its transport, is answered as on an endpoint of
its own. -/
theorem step_fst_of_isTls (hk : k.isMemBio = true) {w : World σ} {a : Action τ}
    (hundisturbed : ∀ call : Call, a = call.action → Undisturbed S w call) (ha : a.isTls = true) :
    (step S T k w a).1 = (isolatedStep S w.ssl a).1 := by
  cases a with
  | handshake => exact answer_of_undisturbed hk (hundisturbed .doHandshake rfl)
  | read maxBytes => exact answer_of_undisturbed hk (hundisturbed (.read maxBytes) rfl)
  | write data => exact answer_of_undisturbed hk (hundisturbed (.write data) rfl)
  | shutdown => exact answer_of_undisturbed hk (hundisturbed .shutdown rfl)
  | transport t => rfl
  | otherFails errors => cases ha
  | popError => cases ha
  | clearErrors => cases ha
  | drainErrors => cases ha

/-- The rest of the component does not touch the SSL object. -/
theorem isolatedStep_of_not_isTls (s : σ) {a : Action τ} (ha : a.isTls = false) :
    (isolatedStep S s a).2 = s := by
  cases a with
  | otherFails errors => rfl
  | popError => rfl
  | clearErrors => rfl
  | drainErrors => rfl
  | _ => cases ha

/-- A run whose calls are all undisturbed gives, apart from what the rest of the component does,
the transcript of the endpoint on its own. -/
theorem answers_eq_isolated (hk : k.isMemBio = true) (w : World σ) {actions : List (Action τ)}
    (h : AllUndisturbed S T k w actions) :
    (Transcript.run (step S T k) w actions).1.filter (fun p => p.1.isTls) =
      (Transcript.run (isolatedStep S) w.ssl (actions.filter Action.isTls)).1 := by
  -- the SSL object is all that the two runs have in common
  refine Transcript.run_filter (R := fun w s => w.ssl = s)
    (P := fun w a => ∀ call : Call, a = call.action → Undisturbed S w call) ?_ ?_ rfl ?_
  · rintro w s a rfl hundisturbed ha
    exact ⟨step_fst_of_isTls hk hundisturbed ha, step_ssl hk w a⟩
  · rintro w s a rfl ha
    rw [step_ssl hk, isolatedStep_of_not_isTls w.ssl ha]
  · rintro before a after heq call rfl
    exact h before call after heq

/-- So two runs of undisturbed calls that differ only in what the rest of the component does answer
alike. -/
theorem answers_eq_of_undisturbed (hk : k.isMemBio = true) (w : World σ)
    {actions₁ actions₂ : List (Action τ)}
    (htls : actions₁.filter Action.isTls = actions₂.filter Action.isTls)
    (h₁ : AllUndisturbed S T k w actions₁) (h₂ : AllUndisturbed S T k w actions₂) :
    (Transcript.run (step S T k) w actions₁).1.filter (fun p => p.1.isTls) =
      (Transcript.run (step S T k) w actions₂).1.filter (fun p => p.1.isTls) := by
  rw [answers_eq_isolated hk w h₁, answers_eq_isolated hk w h₂, htls]

end

end OpenSSLWasm.Tls
