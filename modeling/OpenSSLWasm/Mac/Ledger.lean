import OpenSSLWasm.Mac.Basic

/-!
# What contexts hold

Each context has its record, and its `EVP_MAC_CTX` if it was set up; a caller has the memory of each
code that was computed. Nothing else is ever held between two calls, whatever fails.

## Main results

* `triple_newMacCtx`, `triple_macFinal` and the lemmas for the calls: what one of them takes and
  releases;
* `settle_contexts`: the same for any run.
-/

namespace OpenSSLWasm.Mac

open Ledger Transcript

/-- A resource under a condition. -/
def held (c : Bool) (r : Resource) : Multiset Resource := given c r

/-- What belongs to a context. -/
def owns {σ : Type} (h : ℕ) (x : Option σ) : Multiset Resource :=
  {.rep h} + held x.isSome (.ctx h)

/-- The contexts, and the results that callers have. -/
def State.owned {σ : Type} (s : State σ) : Multiset Resource :=
  s.contexts.owned owns + Multiset.replicate s.results .buffer

section

variable {σ ω : Type} {E : Evp σ ω} {m : Multiset Resource}

/-! ## Helpers -/

theorem triple_newMacCtx (w : ω) (h : ℕ) (alg : Algorithm) (key : List Byte) (p : Params)
    (st : Statics) :
    Triple m (newMacCtx E w h alg key p st) fun r => held r.1.isOk (.ctx h) + m := by
  have hrelease {e : MacError} {st' : Statics} (r : Resource) :
      Triple ({r} + m) (do release r; pure ((.error e : Except MacError σ), st'))
        fun r => held r.1.isOk (.ctx h) + m :=
    Triple.release_then m rfl (Triple.pure (zero_add m).symm)
  unfold newMacCtx
  split
  · exact Triple.pure (zero_add m).symm
  · dsimp only
    split_ifs
    · exact Triple.pure (zero_add m).symm
    · refine Triple.acquire_then ?_
      split
      · exact hrelease .mac
      · refine Triple.acquire_then (Triple.release_then ({.ctx h} + m) (add_left_comm _ _ _) ?_)
        split
        · exact hrelease (.ctx h)
        · refine Triple.use_then (by simp) ?_
          split
          · exact Triple.pure rfl
          · exact hrelease (.ctx h)

theorem triple_macFinal (w : ω) (h : ℕ) (c : σ) (hm : .ctx h ∈ m) :
    Triple m (macFinal E w h c) fun out => held out.isSome .buffer + m := by
  unfold macFinal
  refine Triple.use_then hm ?_
  split
  · refine Triple.acquire_then (Triple.use_then (Multiset.mem_add.mpr (Or.inr hm)) ?_)
    split
    · exact Triple.pure rfl
    · exact Triple.release_then m rfl (Triple.pure (zero_add m).symm)
  · exact Triple.pure (zero_add m).symm

/-! ## Functions -/

theorem triple_oneShot (w : ω) (h : ℕ) (alg : Algorithm) (key data : List Byte) (p : Params)
    (st : Statics) :
    Triple m (oneShot E w h alg key data p st) fun r => held r.1.isOk .buffer + m := by
  unfold oneShot
  refine Triple.bind (triple_newMacCtx w h alg key p st) ?_
  rcases (newMacCtx E w h alg key p st).result with ⟨e | c, st'⟩
  · exact Triple.pure rfl
  have hctx : .ctx h ∈ held true (.ctx h) + m := by simp [held]
  refine Triple.use_then hctx ?_
  split
  · exact Triple.release_then m rfl (Triple.pure (zero_add m).symm)
  · refine Triple.bind (triple_macFinal w h _ hctx) ?_
    refine Triple.release_then _ (add_left_comm _ _ _) (Triple.pure ?_)
    rcases (macFinal E w h _).result with _ | out <;> rfl

theorem triple_constructorContext (w : ω) (h : ℕ) (alg : Algorithm) (key : List Byte) (p : Params)
    (st : Statics) :
    Triple m (constructorContext E w h alg key p st) fun r => owns h r.1 + m := by
  unfold constructorContext
  refine Triple.acquire_then (Triple.bind (triple_newMacCtx w h alg key p st) ?_)
  rcases (newMacCtx E w h alg key p st).result with ⟨e | c, st'⟩
  · exact Triple.pure ((add_left_comm _ _ _).trans (add_assoc _ _ _).symm)
  · exact Triple.pure ((add_left_comm _ _ _).trans (add_assoc _ _ _).symm)

theorem triple_contextUpdate (w : ω) (h : ℕ) (x : Option σ) (data : List Byte) (st : Statics) :
    Triple (owns h x + m) (contextUpdate E w h x data st) fun r => owns h r.2.1 + m := by
  rcases x with _ | c
  · exact Triple.pure rfl
  · refine Triple.use_then (by simp [owns, held]) ?_
    split <;> exact Triple.pure rfl

theorem triple_contextDestructor (h : ℕ) (x : Option σ) :
    Triple (owns h x + m) (contextDestructor h x) fun _ => m := by
  unfold contextDestructor
  refine Triple.releaseAll_then ({.rep h} + m) ?_ Triple.release
  exact (add_right_comm _ _ _).trans (add_comm _ _)

theorem triple_contextFinish (w : ω) (h : ℕ) (x : Option σ) (st : Statics) :
    Triple (owns h x + m) (contextFinish E w h x st) fun r => held r.1.isOk .buffer + m := by
  rcases x with _ | c
  · refine Triple.bind (triple_contextDestructor h _) (Triple.pure (zero_add m).symm)
  · unfold contextFinish
    refine Triple.bind (triple_macFinal w h c (by simp [owns, held])) ?_
    refine Triple.bind (Triple.of_eq (add_left_comm _ _ _) (triple_contextDestructor h _)) ?_
    refine Triple.pure ?_
    rcases (macFinal E w h c).result with _ | out <;> rfl

theorem triple_contextClone (w : ω) (h h' : ℕ) (x : Option σ) (st : Statics) :
    Triple (owns h x + m) (contextClone E w h h' x st)
      fun r => owns h' r.1 + (owns h x + m) := by
  unfold contextClone
  refine Triple.acquire_then ?_
  rcases x with _ | c
  · exact Triple.pure rfl
  · refine Triple.use_then (by simp [owns, held]) ?_
    split
    · exact Triple.pure rfl
    · exact Triple.acquire_then (Triple.pure ((add_left_comm _ _ _).trans (add_assoc _ _ _).symm))

/-! ## Runs -/

theorem eq_of_mem_owns {h : ℕ} {x : Option σ} {r : Resource} (hr : r ∈ owns h x) :
    r = .rep h ∨ r = .ctx h := by
  rcases Multiset.mem_add.mp hr with hr | hr
  · exact Or.inl (Multiset.mem_singleton.mp hr)
  · exact Or.inr (mem_given.mp hr).2

theorem replicate_count (s : State σ) (r : Except MacError (List Byte)) :
    Multiset.replicate (s.count r) Resource.buffer =
      held r.isOk .buffer + Multiset.replicate s.results .buffer := by
  unfold State.count
  rcases r with e | b
  · exact (zero_add _).symm
  · exact Multiset.replicate_succ _ _

/-- What one context has, and what all else is. -/
theorem State.owned_of_entry {s : State σ} {h : ℕ} {x : Option σ}
    (hx : s.contexts.entry h = some x) :
    s.owned = owns h x +
      ((s.contexts.remove h).owned owns + Multiset.replicate s.results .buffer) := by
  rw [State.owned, HandleTable.owned_of_entry owns hx, add_assoc]

theorem settle_step (s : State σ) (a : Event ω) :
    settle s.owned (step E s a).1.entries = some (step E s a).2.owned := by
  cases a with
  | oneShot alg key data p w =>
    refine (triple_oneShot w s.contexts.next alg key data p s.statics).trans (congrArg some ?_)
    simp only [State.owned, step, replicate_count]
    exact add_left_comm _ _ _
  | construct alg key p w =>
    refine (triple_constructorContext w s.contexts.next alg key p s.statics).trans
      (congrArg some ?_)
    simp only [State.owned, step, HandleTable.owned_insert, add_assoc]
  | update h data w =>
    rcases hx : s.contexts.entry h with _ | x
    · simp only [step, hx, settle_nil]
    · simp only [step, hx]
      rw [State.owned_of_entry hx]
      refine (triple_contextUpdate w h x data s.statics).trans (congrArg some ?_)
      rw [State.owned, HandleTable.owned_set owns hx, add_assoc]
  | finish h w =>
    rcases hx : s.contexts.entry h with _ | x
    · simp only [step, hx, settle_nil]
    · simp only [step, hx]
      rw [State.owned_of_entry hx]
      refine (triple_contextFinish w h x s.statics).trans (congrArg some ?_)
      rw [State.owned, replicate_count]
      exact add_left_comm _ _ _
  | clone h w =>
    rcases hx : s.contexts.entry h with _ | x
    · simp only [step, hx, settle_nil]
    · simp only [step, hx]
      rw [State.owned_of_entry hx]
      refine (triple_contextClone w h s.contexts.next x s.statics).trans (congrArg some ?_)
      rw [← State.owned_of_entry hx, State.owned, State.owned, HandleTable.owned_insert, add_assoc]
  | drop h =>
    rcases hx : s.contexts.entry h with _ | x
    · simp only [step, hx, settle_nil]
    · simp only [step, hx]
      rw [State.owned_of_entry hx]
      exact triple_contextDestructor h x
  | elsewhere queue => rfl

/-- In any order of calls, whatever the EVP functions do: nothing is used or released that is not
held; every context that is there has its record and its `EVP_MAC_CTX`, and apart from those only the
memory of results is held. So nothing is left of the contexts once they have all come to an end. -/
theorem settle_contexts (E : Evp σ ω) (events : List (Event ω)) :
    let l := log Reply.entries (run (step E) {} events).1
    let s := (run (step E) {} events).2
    settle 0 l = some s.owned ∧
      ((∀ h, s.contexts.entry h = none) → settle 0 l = some (Multiset.replicate s.results .buffer)) ∧
      ∀ r : Resource, r ≠ .buffer → (∀ h, r = .rep h ∨ r = .ctx h → s.contexts.entry h = none) →
        l.count (.release r) = l.count (.acquire r) := by
  intro l s
  have h : settle 0 l = some s.owned :=
    (settle_run (s := ({} : State σ)) (I := fun _ => True)
      (fun s a _ => ⟨settle_step s a, trivial⟩) trivial events).1
  refine ⟨h, fun hnone => ?_, fun r hbuffer hr => ?_⟩
  · have howned : s.contexts.owned owns = 0 := by
      refine Multiset.eq_zero_of_forall_notMem fun r hr => ?_
      obtain ⟨k, x, hx, -⟩ := (HandleTable.mem_owned owns).mp hr
      rw [hnone k] at hx
      cases hx
    rw [h, State.owned, howned, zero_add]
  · have hnot : r ∉ s.owned := by
      intro hmem
      rcases Multiset.mem_add.mp hmem with hmem | hmem
      · obtain ⟨k, x, hx, hmem⟩ := (HandleTable.mem_owned owns).mp hmem
        rw [hr k (eq_of_mem_owns hmem)] at hx
        cases hx
      · exact hbuffer (Multiset.eq_of_mem_replicate hmem)
    have hcount := count_settle h r
    rw [Multiset.count_zero, zero_add, Multiset.count_eq_zero.mpr hnot, zero_add] at hcount
    exact hcount.symm

end

end OpenSSLWasm.Mac
