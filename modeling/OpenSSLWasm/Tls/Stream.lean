import OpenSSLWasm.Tls.BioPump

/-!
# Application data between memory-BIO endpoints

What one end of a connection writes passes its SSL object and its BIO, the host, and the BIO and the
SSL object of the other end. In between it is ciphertext, of which libssl is the judge; what libssl
guarantees for one object is a hypothesis.

## Main definitions

* `History`: what has passed through an SSL object on both of its sides;
* `RecordLayer`: the documented behaviour of the SSL objects of a session, each on its own;
* `observedStep`: a step of the two endpoints and the host, with what a call answers;
* `applicationWritten` and `applicationRead`: the application data of a run.

## Main results

* `Streams.step`: in every step the histories go on with what the calls take and answer;
* `stream_in_order`: what an end reads is the beginning of what the other end wrote, and all of it
  once nothing is on its way.
-/

namespace OpenSSLWasm.Tls.Pump

open Function Transcript

variable {ς : Type}

/-! ## One SSL object -/

/-- What an SSL object has taken from the transport and has given to it, and the application data
that it has accepted and returned. -/
structure History where
  wireIn : List Byte := []
  wireOut : List Byte := []
  written : List Byte := []
  read : List Byte := []

/-- The history after a call, as far as it shows in the BIOs. -/
def History.pass (h : History) (s s' : MemBioSsl ς) : History :=
  { h with
    wireIn := h.wireIn ++ s.inBio.take (s.inBio.length - s'.inBio.length)
    wireOut := h.wireOut ++ s'.outBio.drop s.outBio.length }

/-- The documented behaviour of the SSL objects of a session, one for each side. -/
structure RecordLayer (B : BioSsl ς) where
  /-- The application data in the ciphertext of a side. -/
  plain : Side → List Byte → List Byte
  /-- An object that may be that of a side after a history. -/
  Has : Side → ς → History → Prop
  plain_mono : ∀ {side w w'}, w <+: w' → plain side w <+: plain side w'
  doHandshake : ∀ {side h} (s : MemBioSsl ς), Has side s.state h →
    let o := s.perform (B.doHandshake s.state)
    Has side o.ssl.state (h.pass s o.ssl)
  /-- `SSL_read` returns how many bytes it has put into the buffer. -/
  read : ∀ {side h} (s : MemBioSsl ς) n, Has side s.state h →
    let o := s.perform (B.read s.state n)
    Has side o.ssl.state { h.pass s o.ssl with read := h.read ++ o.out.take o.ret.toNat }
  /-- `SSL_write` returns how many bytes it has accepted. -/
  write : ∀ {side h} (s : MemBioSsl ς) bs n, Has side s.state h →
    let o := s.perform (B.write s.state bs n)
    Has side o.ssl.state { h.pass s o.ssl with written := h.written ++ bs.take o.ret.toNat }
  shutdown : ∀ {side h} (s : MemBioSsl ς), Has side s.state h →
    let o := s.perform (B.shutdown s.state)
    Has side o.ssl.state (h.pass s o.ssl)
  /-- What was accepted has been sent. -/
  plain_wireOut : ∀ {side s h}, Has side s h → plain side h.wireOut = h.written
  /-- What is returned was in the ciphertext of the other side, in this order. -/
  read_prefix : ∀ {side s h}, Has side s h → h.read <+: plain side.other h.wireIn
  /-- `SSL_read` only waits once all that has arrived is processed. -/
  read_want : ∀ {side h} (s : MemBioSsl ς) n, Has side s.state h →
    let o := s.perform (B.read s.state n)
    o.ret < 0 → (B.reason o.ssl.state o.ret).isWant = true →
      o.ssl.inBio = [] ∧ h.read = plain side.other (h.pass s o.ssl).wireIn

/-! ## What the calls take and answer -/

/-- The application data that a call has taken, by its answer. -/
def acceptedBy : Action Empty → Tls.Answer → List Byte
  | .write data, .written (.ok n) => data.bytes.take n
  | _, _ => []

/-- The application data that a call has returned. -/
def returnedBy : Action Empty → Tls.Answer → List Byte
  | .read _, .bytes (.ok bs) => bs
  | _, _ => []

namespace History

variable (h : History) (s : MemBioSsl ς)

/-- What passes, where it is known. -/
theorem pass_mk {c : ς} {inBio taken g : List Byte} (htaken : s.inBio = taken ++ inBio) :
    h.pass s { state := c, inBio, outBio := s.outBio ++ g } =
      { h with wireIn := h.wireIn ++ taken, wireOut := h.wireOut ++ g } := by
  have hlen : s.inBio.length - inBio.length = taken.length := by
    rw [htaken, List.length_append, Nat.add_sub_cancel]
  rw [pass, hlen, htaken, List.take_left, List.drop_left]

theorem pass_read {state : ς} {inBio taken : List Byte} (htaken : s.inBio = taken ++ inBio) :
    h.pass s { state, inBio, outBio := s.outBio } = { h with wireIn := h.wireIn ++ taken } := by
  have hpass := h.pass_mk s (c := state) (g := []) htaken
  rwa [List.append_nil, List.append_nil] at hpass

/-- Where no call is made, nothing passes. -/
theorem pass_self : h.pass s s = h := by
  exact (h.pass_read s (List.nil_append _).symm).trans (by rw [List.append_nil])

/-- The bytes of the BIO that were taken come before those that are left. -/
theorem pass_wireIn {s' : MemBioSsl ς} (hs : s'.inBio <:+ s.inBio) :
    (h.pass s s').wireIn ++ s'.inBio = h.wireIn ++ s.inBio := by
  obtain ⟨taken, htaken⟩ := hs
  have hlen : s.inBio.length - s'.inBio.length = taken.length := by
    rw [← htaken, List.length_append, Nat.add_sub_cancel]
  rw [pass, hlen, ← htaken, List.take_left, List.append_assoc]

end History

section

variable {B : BioSsl ς} (R : RecordLayer B) (T : ErrorStrings) {side : Side}
  {w : World (MemBioSsl ς)} {h : History}

/-- The history after an action, with what it has taken and answered. -/
def History.after (h : History) (w : World (MemBioSsl ς)) (a : Action Empty)
    (r : Tls.Answer × World (MemBioSsl ς)) : History :=
  { h.pass w.ssl r.2.ssl with
    written := h.written ++ acceptedBy a r.1
    read := h.read ++ returnedBy a r.1 }

/-- An action of neither kind only passes ciphertext. -/
theorem History.after_eq_pass {a : Action Empty} {r : Tls.Answer × World (MemBioSsl ς)}
    (hwritten : acceptedBy a r.1 = []) (hread : returnedBy a r.1 = []) :
    h.after w a r = h.pass w.ssl r.2.ssl := by
  rw [History.after, hwritten, hread, List.append_nil, List.append_nil]
  rfl

/-- The read of a memory-BIO endpoint answers with what libssl has put into the buffer. -/
theorem RecordLayer.has_read (hw : R.Has side w.ssl.state h) (maxBytes : BitVec 32) :
    R.Has side (Tls.step B.toLibSsl T side.kind w (.read maxBytes)).2.ssl.state
      (h.after w (.read maxBytes) (Tls.step B.toLibSsl T side.kind w (.read maxBytes))) := by
  have hhas := R.read w.ssl maxBytes.toInt hw
  obtain ⟨hssl, hok, herror⟩ := methods_read (S := B.toLibSsl) side.kind w maxBytes
  have hread : returnedBy (.read maxBytes)
      (Tls.step B.toLibSsl T side.kind w (.read maxBytes)).1 =
      (B.toLibSsl.read w.ssl maxBytes.toInt).out.take
        (B.toLibSsl.read w.ssl maxBytes.toInt).ret.toNat := by
    rw [Tls.step]
    by_cases hret : (B.toLibSsl.read w.ssl maxBytes.toInt).ret < 0
    · -- nothing is returned, and nothing was to be
      obtain ⟨e, he⟩ := herror hret
      rw [he, Int.toNat_of_nonpos (by omega), List.take_zero]
      rfl
    · rw [hok (by omega)]
      rfl
  rw [History.after, hread]
  simp only [Tls.step, hssl, acceptedBy, List.append_nil]
  exact hhas

/-- The write of a memory-BIO endpoint answers with the number of bytes that libssl has accepted,
unless there are none to be written. -/
theorem memBioWrite_cases (S : LibSsl (MemBioSsl ς) Empty) (data : ListU8) :
    memBioWrite S data w = (.ok 0, w) ∨
      (memBioWrite S data w).2.ssl = (S.write w.ssl data.bytes (cInt data.len)).ssl ∧
        ((S.write w.ssl data.bytes (cInt data.len)).ret ≤ 0 ∧
            (∃ e, (memBioWrite S data w).1 = .error e) ∨
          (memBioWrite S data w).1 =
            .ok (S.write w.ssl data.bytes (cInt data.len)).ret.toNat) := by
  unfold memBioWrite
  by_cases hlen : data.len = 0
  · exact Or.inl (if_pos hlen)
  · rw [if_neg hlen]
    refine Or.inr ⟨rfl, ?_⟩
    by_cases hret : (S.write w.ssl data.bytes (cInt data.len)).ret ≤ 0
    · exact Or.inl ⟨hret, _, if_pos hret⟩
    · exact Or.inr (if_neg hret)

theorem RecordLayer.has_write (hw : R.Has side w.ssl.state h) (data : ListU8) :
    R.Has side (Tls.step B.toLibSsl T side.kind w (.write data)).2.ssl.state
      (h.after w (.write data) (Tls.step B.toLibSsl T side.kind w (.write data))) := by
  have hstep : Tls.step B.toLibSsl T side.kind w (.write data) =
      (.written (memBioWrite B.toLibSsl data w).1, (memBioWrite B.toLibSsl data w).2) := by
    cases side <;> rfl
  have hhas := R.write w.ssl data.bytes (cInt data.len) hw
  rw [hstep, History.after]
  rcases memBioWrite_cases B.toLibSsl data with hnone | ⟨hssl, hanswer⟩
  · rw [hnone]
    simpa [acceptedBy, returnedBy, History.pass_self] using hw
  · have hwritten : acceptedBy (.write data) (.written (memBioWrite B.toLibSsl data w).1) =
        data.bytes.take (B.toLibSsl.write w.ssl data.bytes (cInt data.len)).ret.toNat := by
      rcases hanswer with ⟨hret, e, he⟩ | hok
      · rw [he, Int.toNat_of_nonpos hret, List.take_zero]
        rfl
      · rw [hok]
        rfl
    rw [hwritten]
    simp only [hssl, returnedBy, List.append_nil]
    exact hhas

/-- Whatever is done with an endpoint, its SSL object goes on with its history. -/
theorem RecordLayer.has_step (hw : R.Has side w.ssl.state h) (a : Action Empty) :
    R.Has side (Tls.step B.toLibSsl T side.kind w a).2.ssl.state
      (h.after w a (Tls.step B.toLibSsl T side.kind w a)) := by
  have hsame : ∀ w' : World (MemBioSsl ς), w'.ssl = w.ssl →
      R.Has side w'.ssl.state (h.pass w.ssl w'.ssl) := by
    intro w' hw'
    rw [hw', History.pass_self]
    exact hw
  cases a with
  | handshake =>
    have hssl : (Tls.step B.toLibSsl T side.kind w .handshake).2.ssl = _ :=
      methods_handshake_ssl (S := B.toLibSsl) side.kind w
    rw [History.after_eq_pass rfl rfl, hssl]
    exact R.doHandshake w.ssl hw
  | read maxBytes => exact R.has_read T hw maxBytes
  | write data => exact R.has_write T hw data
  | shutdown =>
    have hssl : (Tls.step B.toLibSsl T side.kind w .shutdown).2.ssl = _ :=
      methods_shutdown_ssl (S := B.toLibSsl) side.kind w
    rw [History.after_eq_pass rfl rfl, hssl]
    exact R.shutdown w.ssl hw
  | transport t => exact t.elim
  -- the others only change the error queue
  | otherFails errors => rw [History.after_eq_pass rfl rfl]; exact hsame _ rfl
  | popError => rw [History.after_eq_pass rfl rfl]; exact hsame _ rfl
  | clearErrors => rw [History.after_eq_pass rfl rfl]; exact hsame _ rfl
  | drainErrors => rw [History.after_eq_pass rfl rfl]; exact hsame _ rfl

/-- Where a read would block, libssl waits for the transport. -/
theorem read_wouldBlock {maxBytes : BitVec 32}
    (hblock : (Tls.step B.toLibSsl T side.kind w (.read maxBytes)).1 =
      .bytes (.error .wouldBlock)) :
    let o := w.ssl.perform (B.read w.ssl.state maxBytes.toInt)
    o.ret < 0 ∧ (B.reason o.ssl.state o.ret).isWant = true := by
  intro o
  have hstep : (Tls.step B.toLibSsl T side.kind w (.read maxBytes)).1 =
      .bytes (memBioRead B.toLibSsl maxBytes w).1 := by
    cases side <;> rfl
  rw [hstep, Tls.Answer.bytes.injEq, memBioRead] at hblock
  dsimp only [World.sslRead] at hblock
  change (if o.ret < 0 then _ else _) = _ at hblock
  by_cases hret : o.ret < 0
  · refine ⟨hret, ?_⟩
    rw [if_pos hret, Except.error.injEq] at hblock
    by_cases hwant : ((w.after o).getError B.toLibSsl o.ret).isWant = true
    · -- with anything in the queue the failure would count as fatal
      rw [World.getError, if_neg (by omega)] at hwant
      split_ifs at hwant with hqueue
      · exact absurd hwant (by decide)
      · exact hwant
    · change (if ((w.after o).getError B.toLibSsl o.ret).isWant = true then _ else _) = _ at hblock
      rw [if_neg hwant] at hblock
      split_ifs at hblock
  · rw [if_neg hret] at hblock
    cases hblock

end

/-! ## Runs -/

/-- The transcript of a run: what is seen of a step, and what it answers if it is a call. -/
abbrev Observations := List (Event × (Answer × Tls.Answer))

section

variable (B : BioSsl ς) (T : ErrorStrings)

def callAnswer (s : State ς) : Event → Tls.Answer
  | .call side a => (Tls.step B.toLibSsl T side.kind (s.ends side) a).1
  | _ => .none

/-- A step of the endpoints and the host. -/
def observedStep (s : State ς) (e : Event) : (Answer × Tls.Answer) × State ς :=
  (((step B T s e).1, callAnswer B T s e), (step B T s e).2)

end

/-- What moves the ciphertext. -/
def onWire (t : Observations) : List (Event × Answer) := t.map fun p => (p.1, p.2.1)

section

variable (side : Side)

def acceptedIn : Event × (Answer × Tls.Answer) → List Byte
  | (.call side' a, (_, r)) => if side' = side then acceptedBy a r else []
  | _ => []

def returnedIn : Event × (Answer × Tls.Answer) → List Byte
  | (.call side' a, (_, r)) => if side' = side then returnedBy a r else []
  | _ => []

/-- What the `write` calls of a side have accepted in a run. -/
def applicationWritten (t : Observations) : List Byte := t.flatMap (acceptedIn side)

/-- What the `read` calls of a side have returned in a run. -/
def applicationRead (t : Observations) : List Byte := t.flatMap (returnedIn side)

variable (t : Observations) (p : Event × (Answer × Tls.Answer))

theorem onWire_concat : onWire (t ++ [p]) = onWire t ++ [(p.1, p.2.1)] := List.map_append

theorem applicationWritten_concat :
    applicationWritten side (t ++ [p]) = applicationWritten side t ++ acceptedIn side p := by
  rw [applicationWritten, applicationWritten, List.flatMap_append, List.flatMap_singleton]

theorem applicationRead_concat :
    applicationRead side (t ++ [p]) = applicationRead side t ++ returnedIn side p := by
  rw [applicationRead, applicationRead, List.flatMap_append, List.flatMap_singleton]

/-- What a side has been through in a run, if this is what its SSL object has taken from its BIO. -/
def historyOf (wireIn : List Byte) : History where
  wireIn
  wireOut := emitted side (onWire t)
  written := applicationWritten side t
  read := applicationRead side t

end

section

variable {B : BioSsl ς} (R : RecordLayer B) (T : ErrorStrings) {t : Observations} {s : State ς}

/-- The ciphertext is where it should be, and the SSL objects have the histories that the calls
have shown. -/
structure Streams (t : Observations) (s : State ς) : Prop where
  inv : Inv (onWire t) s
  has : ∀ side, ∃ wireIn, wireIn ++ (s.ends side).ssl.inBio = delivered side (onWire t) ∧
    R.Has side (s.ends side).ssl.state (historyOf side t wireIn)

theorem streams_init {objects : Side → ς} (hnew : ∀ side, R.Has side (objects side) {}) :
    Streams R [] (State.init objects) where
  inv := inv_init objects
  has side := ⟨[], rfl, hnew side⟩

/-- What a side does not do itself reaches its SSL object through the BIO only. -/
theorem step_of_ne {side : Side} {e : Event} (he : ∀ a, e ≠ .call side a) :
    ((step B T s e).2.ends side).ssl.state = (s.ends side).ssl.state ∧
      ((step B T s e).2.ends side).ssl.inBio =
        (s.ends side).ssl.inBio ++ deliveredBy side (e, (step B T s e).1) ∧
      emittedBy side (e, (step B T s e).1) = [] := by
  cases e with
  | call side' a =>
    have hside : side ≠ side' := by
      rintro rfl
      exact he a rfl
    simp [step, update_of_ne hside, Ne.symm hside, deliveredBy, emittedBy]
  | bioRead side' max =>
    by_cases hside : side = side'
    · subst hside
      simp [step, side.bioRead_eq, memBioBioRead_eq, deliveredBy, emittedBy]
    · simp [step, update_of_ne hside, deliveredBy, emittedBy]
  | bioPending side' => simp [step, deliveredBy, emittedBy]
  | bioWrite side' data =>
    rw [step]
    split
    next => simp [deliveredBy, emittedBy]
    next chunk rest hcarried =>
      split_ifs with hdata
      · by_cases hside : side = side'
        · subst hside
          simp [side.bioWrite_eq, memBioBioWrite_eq, deliveredBy, emittedBy]
        · simp [update_of_ne hside, Ne.symm hside, deliveredBy, emittedBy]
      · simp [deliveredBy, emittedBy]

theorem acceptedIn_of_ne {side : Side} {p : Event × (Answer × Tls.Answer)}
    (hp : ∀ a, p.1 ≠ .call side a) : acceptedIn side p = [] ∧ returnedIn side p = [] := by
  obtain ⟨e, r⟩ := p
  cases e with
  | call side' a =>
    have hside : side' ≠ side := by
      rintro rfl
      exact hp a rfl
    exact ⟨if_neg hside, if_neg hside⟩
  | bioRead side' max => exact ⟨rfl, rfl⟩
  | bioPending side' => exact ⟨rfl, rfl⟩
  | bioWrite side' data => exact ⟨rfl, rfl⟩

theorem Streams.step (h : Streams R t s) (e : Event) :
    Streams R (t ++ [(e, (observedStep B T s e).1)]) (observedStep B T s e).2 := by
  refine ⟨?_, fun side => ?_⟩
  · rw [onWire_concat]
    exact h.inv.step B T e
  · obtain ⟨wireIn, hwireIn, hhas⟩ := h.has side
    by_cases he : ∃ a, e = .call side a
    · -- the history goes on with what the call takes and answers
      obtain ⟨a, rfl⟩ := he
      have hcall := R.has_step T hhas a
      have hin := (bios_step B T side.kind (s.ends side) a).1
      have hends : (observedStep B T s (.call side a)).2.ends side =
          (Tls.step B.toLibSsl T side.kind (s.ends side) a).2 := update_self _ _ _
      have hwire := (historyOf side t wireIn).pass_wireIn _ hin
      refine ⟨((historyOf side t wireIn).pass (s.ends side).ssl
        (Tls.step B.toLibSsl T side.kind (s.ends side) a).2.ssl).wireIn, ?_, ?_⟩
      · rw [hends, onWire_concat, delivered_concat, ← hwireIn]
        exact hwire.trans (List.append_nil _).symm
      · rw [hends, historyOf, onWire_concat, emitted_concat, applicationWritten_concat,
          applicationRead_concat]
        simp only [observedStep, Pump.step, callAnswer, emittedBy, acceptedIn, returnedIn, if_pos]
        exact hcall
    · -- the history stays
      push Not at he
      obtain ⟨hstate, hin, hemitted⟩ := step_of_ne (B := B) T (s := s) he
      obtain ⟨haccepted, hreturned⟩ := acceptedIn_of_ne (p := (e, (observedStep B T s e).1)) he
      refine ⟨wireIn, ?_, ?_⟩
      · rw [show (observedStep B T s e).2 = (Pump.step B T s e).2 from rfl, hin, onWire_concat,
          delivered_concat, ← hwireIn, List.append_assoc]
        rfl
      · rw [show (observedStep B T s e).2 = (Pump.step B T s e).2 from rfl, hstate, historyOf,
          onWire_concat, emitted_concat, applicationWritten_concat, haccepted,
          applicationRead_concat, hreturned, List.append_nil, List.append_nil,
          show emittedBy side (e, (observedStep B T s e).1.1) = [] from hemitted, List.append_nil]
        exact hhas

/-- What has arrived is the beginning of what was sent, and so is the application data. -/
theorem Streams.read_prefix (h : Streams R t s) (side : Side) :
    applicationRead side.other t <+: applicationWritten side t := by
  obtain ⟨wireIn, hwireIn, hhas⟩ := h.has side.other
  obtain ⟨_, -, hpeer⟩ := h.has side
  have hwire : wireIn <+: emitted side (onWire t) := by
    rw [h.inv.emitted, h.inv.taken, ← hwireIn, List.append_assoc, List.append_assoc]
    exact List.prefix_append _ _
  have hplain := R.plain_wireOut hpeer
  have hread := R.read_prefix hhas
  rw [Side.other_other] at hread
  calc applicationRead side.other t
      <+: R.plain side wireIn := hread
    _ <+: R.plain side (emitted side (onWire t)) := R.plain_mono hwire
    _ = applicationWritten side t := hplain

/-- If nothing is on its way, a read that would block has nothing left to read. -/
theorem Streams.read_eq (h : Streams R t s) {side : Side} (hcarried : s.carried side = [])
    (hout : (s.ends side).ssl.outBio = []) {maxBytes : BitVec 32}
    (hblock : (Tls.step B.toLibSsl T side.other.kind (s.ends side.other) (.read maxBytes)).1 =
      .bytes (.error .wouldBlock)) :
    applicationRead side.other t = applicationWritten side t := by
  obtain ⟨wireIn, hwireIn, hhas⟩ := h.has side.other
  obtain ⟨_, -, hpeer⟩ := h.has side
  obtain ⟨hret, hwant⟩ := read_wouldBlock T hblock
  obtain ⟨hin, hread⟩ := R.read_want _ _ hhas hret hwant
  have hall := (historyOf side.other t wireIn).pass_wireIn (s.ends side.other).ssl
    (hin ▸ List.nil_suffix)
  have hsent : emitted side (onWire t) = delivered side.other (onWire t) := by
    rw [h.inv.emitted, h.inv.taken, hcarried, hout, List.flatten_nil, List.append_nil,
      List.append_nil]
  rw [hin, List.append_nil] at hall
  rw [hall, Side.other_other] at hread
  calc applicationRead side.other t
      = R.plain side (wireIn ++ (s.ends side.other).ssl.inBio) := hread
    _ = R.plain side (emitted side (onWire t)) := by rw [hwireIn, hsent]
    _ = applicationWritten side t := R.plain_wireOut hpeer

/-- In any order of calls on a client and a server between which the host carries ciphertext, what
the `read` calls of an end return is the beginning of what the `write` calls of the other end have
accepted, and all of it once nothing is on its way and a `read` would block. -/
theorem stream_in_order {objects : Side → ς} (hnew : ∀ side, R.Has side (objects side) {})
    (events : List Event) (side : Side) :
    let t := (run (observedStep B T) (.init objects) events).1
    let s := (run (observedStep B T) (.init objects) events).2
    applicationRead side.other t <+: applicationWritten side t ∧
      ∀ maxBytes, s.carried side = [] → (s.ends side).ssl.outBio = [] →
        (Tls.step B.toLibSsl T side.other.kind (s.ends side.other) (.read maxBytes)).1 =
          .bytes (.error .wouldBlock) →
        applicationRead side.other t = applicationWritten side t := by
  intro t s
  have h : Streams R t s := run_invariant (I := Streams R) (t := [])
    (fun t s e ht => ht.step R T e) (streams_init R hnew) events
  refine ⟨h.read_prefix R side, fun maxBytes hcarried hout hblock => ?_⟩
  exact h.read_eq R T hcarried hout hblock

end

/-! ## An SSL object that behaves so -/

/-- An SSL object that sends a hello of five bytes and waits for one. -/
structure HelloState where
  sent : Bool := false
  awaited : ℕ := 5
  deriving DecidableEq

/-- Application data follows the hello, with a mask. -/
def maskedSsl : BioSsl HelloState where
  doHandshake s :=
    let wait : BioProgram (Outcome HelloState) := .read s.awaited fun r =>
      .ret {
        ret := if r.2.length = s.awaited then 1 else -1
        ssl := { sent := true, awaited := s.awaited - r.2.length } }
    if s.sent then wait else .write [22, 3, 3, 0, 0] fun _ => wait
  read s n :=
    if s.awaited = 0 then .read n fun r => .ret { ret := r.1, out := r.2.map (· ^^^ 90), ssl := s }
    else .ret { ret := -1, ssl := s }
  write s bs n :=
    if s.sent then .write ((bs.take n.toNat).map (· ^^^ 90)) fun r => .ret { ret := r, ssl := s }
    else .ret { ret := -1, ssl := s }
  shutdown s := .ret { ret := 1, ssl := s }
  -- data cannot be read before the handshake
  reason s _ := if s.awaited = 0 then .wantRead else .syscall

/-- What a side has sent and taken after the hellos, or after parts of them. -/
structure Masks (s : HelloState) (h : History) : Prop where
  unsent : s.sent = false → h.wireOut = []
  sent : s.sent = true → 5 ≤ h.wireOut.length
  written : h.written = (h.wireOut.drop 5).map (· ^^^ 90)
  awaited : s.awaited = 5 - h.wireIn.length
  read : h.read = (h.wireIn.drop 5).map (· ^^^ 90)

section

variable {s : MemBioSsl HelloState} {h : History}

theorem mask_mask (bs : List Byte) : (bs.map (· ^^^ 90)).map (· ^^^ 90) = bs := by
  have hbyte : (fun b : Byte => b ^^^ 90) ∘ (fun b => b ^^^ 90) = id := by
    funext b
    simp [BitVec.xor_assoc]
  rw [List.map_map, hbyte, List.map_id]

theorem masks_shutdown (hs : Masks s.state h) : Masks s.state (h.pass s s) := by
  rwa [History.pass_self]

/-- Waiting for the hello takes no more than its bytes. -/
theorem Masks.await (hs : Masks s.state h) {taken : List Byte}
    (htaken : taken.length ≤ s.state.awaited) :
    s.state.awaited - taken.length = 5 - (h.wireIn ++ taken).length ∧
      h.read = ((h.wireIn ++ taken).drop 5).map (· ^^^ 90) := by
  have hawaited := hs.awaited
  refine ⟨by rw [List.length_append]; omega, ?_⟩
  rw [hs.read, List.drop_append]
  rcases Nat.eq_zero_or_pos taken.length with hnil | hpos
  · rw [List.eq_nil_of_length_eq_zero hnil, List.drop_nil, List.append_nil]
  · rw [List.drop_of_length_le (l := taken) (by omega), List.append_nil]

theorem masks_doHandshake (hs : Masks s.state h) :
    let o := s.perform (maskedSsl.doHandshake s.state)
    Masks o.ssl.state (h.pass s o.ssl) := by
  have hwait : (s.inBio.take s.state.awaited).length ≤ s.state.awaited := List.length_take_le _ _
  have htaken : s.inBio = s.inBio.take s.state.awaited ++ s.inBio.drop s.state.awaited :=
    (List.take_append_drop _ _).symm
  obtain ⟨hawaited, hread⟩ := hs.await hwait
  dsimp only [maskedSsl, MemBioSsl.perform]
  by_cases hsent : s.state.sent = true
  · simp only [hsent, if_true, BioProgram.run, bioRead, Int.toNat_natCast]
    rw [h.pass_read s htaken]
    exact ⟨fun h => (by cases h), fun _ => hs.sent hsent, hs.written, hawaited, hread⟩
  · have hunsent := hs.unsent (by simpa using hsent)
    simp only [hsent, Bool.false_eq_true, if_false, BioProgram.run, bioRead, bioWrite,
      Int.toNat_natCast]
    rw [h.pass_mk s htaken, hunsent]
    -- the hello is no application data
    have hwritten := hs.written
    rw [hunsent] at hwritten
    exact ⟨fun h => (by cases h), fun _ => Nat.le_refl 5, hwritten, hawaited, hread⟩

theorem masks_read (hs : Masks s.state h) (n : ℤ) :
    let o := s.perform (maskedSsl.read s.state n)
    Masks o.ssl.state { h.pass s o.ssl with read := h.read ++ o.out.take o.ret.toNat } := by
  dsimp only [maskedSsl, MemBioSsl.perform]
  by_cases hawaited : s.state.awaited = 0
  · have hread : (bioRead s.inBio n).1.2.take (bioRead s.inBio n).1.1.toNat =
        s.inBio.take n.toNat := by
      have hnat : ∀ m : ℤ, (if m < 0 then 0 else m).toNat = m.toNat := by
        intro m
        split_ifs <;> omega
      rw [← take_bioRead s.inBio n, hnat]
    have hlen : 5 ≤ h.wireIn.length := by
      have := hs.awaited
      omega
    rw [if_pos hawaited]
    simp only [BioProgram.run]
    rw [show (bioRead s.inBio n).2 = s.inBio.drop n.toNat from rfl,
      h.pass_read s (List.take_append_drop n.toNat _).symm, ← List.map_take, hread]
    refine ⟨hs.unsent, hs.sent, hs.written, ?_, ?_⟩
    · rw [hawaited, List.length_append]
      omega
    · rw [hs.read, List.drop_append_of_le_length hlen, List.map_append]
  · rw [if_neg hawaited]
    simp only [BioProgram.run, List.take_nil, List.append_nil]
    rw [History.pass_self]
    exact hs

theorem masks_write (hs : Masks s.state h) (bs : List Byte) (n : ℤ) :
    let o := s.perform (maskedSsl.write s.state bs n)
    Masks o.ssl.state { h.pass s o.ssl with written := h.written ++ bs.take o.ret.toNat } := by
  dsimp only [maskedSsl, MemBioSsl.perform]
  by_cases hsent : s.state.sent = true
  · have htake : bs.take (bs.take n.toNat).length = bs.take n.toNat := by
      rw [List.length_take, List.take_eq_take_min, Nat.min_assoc, Nat.min_self,
        ← List.take_eq_take_min]
    rw [if_pos hsent]
    simp only [BioProgram.run, bioWrite, List.length_map, Int.toNat_natCast]
    rw [h.pass_mk s (List.nil_append _).symm, List.append_nil, htake]
    refine ⟨fun hun => absurd hun (by simp [hsent]), fun _ => ?_, ?_, hs.awaited, hs.read⟩
    · exact (hs.sent hsent).trans (by rw [List.length_append]; omega)
    · rw [hs.written, List.drop_append_of_le_length (hs.sent hsent), List.map_append, mask_mask]
  · rw [if_neg hsent]
    have hnone : bs.take (-1 : ℤ).toNat = [] := rfl
    simp only [BioProgram.run, hnone, List.append_nil]
    rw [History.pass_self]
    exact hs

/-- A read waits only with an empty BIO, and after the hello. -/
theorem masks_read_want (hs : Masks s.state h) (n : ℤ) :
    let o := s.perform (maskedSsl.read s.state n)
    o.ret < 0 → (maskedSsl.reason o.ssl.state o.ret).isWant = true →
      o.ssl.inBio = [] ∧ h.read = ((h.pass s o.ssl).wireIn.drop 5).map (· ^^^ 90) := by
  intro o hret hwant
  by_cases hawaited : s.state.awaited = 0
  · have ho : o = s.perform (.read n fun r =>
        .ret { ret := r.1, out := r.2.map (· ^^^ 90), ssl := s.state }) :=
      congrArg s.perform (if_pos hawaited)
    have hempty : s.inBio = [] := by
      by_contra hne
      rw [ho] at hret
      simp only [MemBioSsl.perform, BioProgram.run, bioRead, List.isEmpty_iff, if_neg hne] at hret
      split_ifs at hret <;> omega
    have hin : o.ssl.inBio = [] := by
      rw [ho]
      exact (congrArg (List.drop _) hempty).trans List.drop_nil
    have hwire := h.pass_wireIn s (hin ▸ List.nil_suffix)
    rw [hin, hempty, List.append_nil, List.append_nil] at hwire
    exact ⟨hin, by rw [hwire, hs.read]⟩
  · -- before the hello the reason is another one
    have ho : o = s.perform (.ret { ret := -1, ssl := s.state }) :=
      congrArg s.perform (if_neg hawaited)
    rw [ho] at hwant
    change (if s.state.awaited = 0 then SslError.wantRead else .syscall).isWant = true at hwant
    rw [if_neg hawaited] at hwant
    cases hwant

end

def maskedLayer : RecordLayer maskedSsl where
  plain _ w := (w.drop 5).map (· ^^^ 90)
  Has _ := Masks
  plain_mono h := (h.drop 5).map _
  doHandshake _ hs := masks_doHandshake hs
  read _ n hs := masks_read hs n
  write _ bs n hs := masks_write hs bs n
  shutdown _ hs := masks_shutdown hs
  plain_wireOut hs := hs.written.symm
  read_prefix hs := hs.read ▸ List.prefix_rfl
  read_want _ n hs := masks_read_want hs n

/-- A list of a few bytes. -/
def fewBytes (bs : List Byte) : ListU8 :=
  .ofBytes (bs.take 16) (by rw [List.length_take]; omega) 0

/-- The hellos are exchanged, and the client's data goes over in two parts. -/
def greetRun : List Event :=
  [.call .client .handshake, .call .server .handshake, .bioRead .server 16,
    .bioWrite .client (fewBytes [22, 3, 3, 0, 0]), .call .client .handshake,
    .call .client (.write (fewBytes [1, 2])), .bioRead .client 6,
    .bioRead .client 16, .bioWrite .server (fewBytes [22, 3, 3, 0, 0, 91]),
    .call .server .handshake, .call .server (.read 8),
    .bioWrite .server (fewBytes [88]), .call .server (.read 8)]

theorem stream_in_order_greetRun :
    let T : ErrorStrings := ⟨fun _ => none, fun _ => none⟩
    let t := (run (observedStep maskedSsl T) (.init fun _ => {}) greetRun).1
    applicationWritten .client t = [1, 2] ∧
      applicationRead .server t = applicationWritten .client t := by
  intro T t
  have hnew : ∀ side, maskedLayer.Has side ((fun _ => {} : Side → HelloState) side) {} :=
    fun _ => ⟨fun _ => rfl, nofun, rfl, rfl, rfl⟩
  refine ⟨by decide, ?_⟩
  exact (stream_in_order maskedLayer T hnew greetRun .client).2 8 (by decide) (by decide)
    (by decide)

end OpenSSLWasm.Tls.Pump
