import OpenSSLWasm.Lib.Transcript
import Mathlib.Algebra.Order.Group.Multiset
import Mathlib.Data.Multiset.AddSub
import Mathlib.Tactic.Abel

/-!
# Ledgers of resources

A computation that takes and gives back resources keeps a ledger of it. What is held is a multiset,
so that one resource may be held through several references. A ledger is settled from what is held
at first; it cannot be where it gives back, or uses, what is not held.

## Main definitions

* `Entry` and `settle`: ledgers, and what is held after one;
* `Acct`: computations with a ledger;
* `Triple`: from holding this a computation comes to hold that;
* `Leaves`: whatever else is held, this is left;
* `log`: the ledger of a run of an object.

## Main results

* `settle_add`: what else is held stays as it is;
* `count_settle`: how often a resource is acquired and released;
* `Triple.bind`, `Triple.acquire_then`, `Triple.exit` and their companions: the rules for
  computations;
* `settle_run`: what the steps of an object do to what it owns, a run does.
-/

namespace Ledger

variable {ρ : Type*} {α β : Type}

/-- One entry of a ledger. -/
inductive Entry (ρ : Type*)
  | acquire (r : ρ)
  | use (r : ρ)
  | release (r : ρ)
  deriving DecidableEq, Repr

section Settle

variable [DecidableEq ρ]

/-- What is held after an entry; `none` if it releases or uses what is not held. -/
def Entry.post (m : Multiset ρ) : Entry ρ → Option (Multiset ρ)
  | acquire r => some ({r} + m)
  | use r => if r ∈ m then some m else none
  | release r => if r ∈ m then some (m.erase r) else none

/-- What is held after all entries. -/
def settle (m : Multiset ρ) : List (Entry ρ) → Option (Multiset ρ)
  | [] => some m
  | x :: l => (x.post m).bind (settle · l)

@[simp] theorem settle_nil (m : Multiset ρ) : settle m [] = some m := rfl

theorem settle_cons (m : Multiset ρ) (x : Entry ρ) (l : List (Entry ρ)) :
    settle m (x :: l) = (x.post m).bind (settle · l) := rfl

theorem settle_append (m : Multiset ρ) (l l' : List (Entry ρ)) :
    settle m (l ++ l') = (settle m l).bind (settle · l') := by
  induction l generalizing m with
  | nil => rfl
  | cons x l ih =>
    rw [List.cons_append, settle_cons, settle_cons, Option.bind_assoc]
    simp only [ih]

/-- A ledger is settled as far as it goes. -/
theorem settle_of_append {m m' : Multiset ρ} {l l' : List (Entry ρ)}
    (h : settle m (l ++ l') = some m') : ∃ m₁, settle m l = some m₁ ∧ settle m₁ l' = some m' := by
  rw [settle_append] at h
  exact Option.bind_eq_some_iff.mp h

theorem Entry.post_add {m m' : Multiset ρ} {x : Entry ρ} (h : x.post m = some m')
    (f : Multiset ρ) : x.post (m + f) = some (m' + f) := by
  cases x with
  | acquire r =>
    obtain rfl := Option.some.inj h
    rw [post, add_assoc]
  | use r =>
    obtain ⟨hr, h⟩ := Option.ite_none_right_eq_some.mp h
    obtain rfl := Option.some.inj h
    exact if_pos (Multiset.mem_add.mpr (Or.inl hr))
  | release r =>
    obtain ⟨hr, h⟩ := Option.ite_none_right_eq_some.mp h
    obtain rfl := Option.some.inj h
    rw [post, if_pos (Multiset.mem_add.mpr (Or.inl hr)), Multiset.erase_add_left_pos f hr]

/-- What else is held stays as it is. -/
theorem settle_add {m m' : Multiset ρ} {l : List (Entry ρ)} (h : settle m l = some m')
    (f : Multiset ρ) : settle (m + f) l = some (m' + f) := by
  induction l generalizing m with
  | nil =>
    obtain rfl := Option.some.inj h
    rfl
  | cons x l ih =>
    obtain ⟨m₁, hx, hl⟩ := Option.bind_eq_some_iff.mp h
    rw [settle_cons, Entry.post_add hx f, Option.bind_some, ih hl]

/-- One entry changes how often its own resource is held. -/
theorem Entry.count_post {m m' : Multiset ρ} {x : Entry ρ} (h : x.post m = some m') (r : ρ) :
    m.count r + [x].count (.acquire r) = m'.count r + [x].count (.release r) := by
  rw [List.count_singleton, List.count_singleton]
  cases x with
  | acquire s =>
    obtain rfl := Option.some.inj h
    rw [Multiset.count_add, Multiset.count_singleton]
    by_cases hs : r = s
    · subst hs
      simp [add_comm]
    · simp [hs, Ne.symm hs]
  | use s =>
    obtain ⟨-, h⟩ := Option.ite_none_right_eq_some.mp h
    obtain rfl := Option.some.inj h
    simp
  | release s =>
    obtain ⟨hs, h⟩ := Option.ite_none_right_eq_some.mp h
    obtain rfl := Option.some.inj h
    by_cases hr : r = s
    · subst hr
      have := Multiset.count_pos.mpr hs
      rw [Multiset.count_erase_self]
      simp
      omega
    · rw [Multiset.count_erase_of_ne hr]
      simp [Ne.symm hr]

/-- What was held and what is acquired is what is held in the end and what is released. -/
theorem count_settle {m m' : Multiset ρ} {l : List (Entry ρ)} (h : settle m l = some m') (r : ρ) :
    m.count r + l.count (.acquire r) = m'.count r + l.count (.release r) := by
  induction l generalizing m with
  | nil =>
    obtain rfl := Option.some.inj h
    rfl
  | cons x l ih =>
    obtain ⟨m₁, hx, hl⟩ := Option.bind_eq_some_iff.mp h
    have hhead := Entry.count_post hx r
    have htail := ih hl
    rw [← List.singleton_append, List.count_append, List.count_append]
    omega

/-- The resource that an entry is about. -/
@[simp] def Entry.resource : Entry ρ → ρ
  | acquire r | use r | release r => r

/-- What a ledger says nothing about is held as before. -/
theorem mem_settle_iff {m m' : Multiset ρ} {l : List (Entry ρ)} (h : settle m l = some m') {r : ρ}
    (hr : ∀ x ∈ l, x.resource ≠ r) : r ∈ m' ↔ r ∈ m := by
  have hcount := count_settle h r
  have hacquire : l.count (.acquire r) = 0 :=
    List.count_eq_zero.mpr fun hmem => hr _ hmem rfl
  have hrelease : l.count (.release r) = 0 :=
    List.count_eq_zero.mpr fun hmem => hr _ hmem rfl
  rw [← Multiset.count_pos, ← Multiset.count_pos]
  omega

/-- What is used and not released is held. -/
theorem mem_of_use {m m' : Multiset ρ} {l : List (Entry ρ)} (h : settle m l = some m') {r : ρ}
    (huse : .use r ∈ l) (hrelease : .release r ∉ l) : r ∈ m' := by
  obtain ⟨before, after, rfl⟩ := List.append_of_mem huse
  obtain ⟨m₁, hbefore, hafter⟩ := settle_of_append h
  have hr : r ∈ m₁ := by
    obtain ⟨_, hx, -⟩ := Option.bind_eq_some_iff.mp hafter
    exact (Option.ite_none_right_eq_some.mp hx).1
  have hcount := count_settle hafter r
  have hnone : (Entry.use r :: after).count (.release r) = 0 :=
    List.count_eq_zero.mpr fun hmem => hrelease (List.mem_append_right _ hmem)
  have := Multiset.count_pos.mpr hr
  rw [← Multiset.count_pos]
  omega

end Settle

/-! ## Computations -/

/-- A computation with the ledger that it keeps. -/
structure Acct (ρ : Type*) (α : Type) where
  result : α
  entries : List (Entry ρ) := []

namespace Acct

instance : Monad (Acct ρ) where
  pure a := { result := a }
  bind p f := { result := (f p.result).result, entries := p.entries ++ (f p.result).entries }

@[simp] theorem result_pure (a : α) : (pure a : Acct ρ α).result = a := rfl

@[simp] theorem result_bind (p : Acct ρ α) (f : α → Acct ρ β) :
    (p >>= f).result = (f p.result).result := rfl

theorem result_ite (c : Prop) [Decidable c] (p q : Acct ρ α) :
    (if c then p else q).result = if c then p.result else q.result :=
  apply_ite _ _ _ _

@[simp] theorem entries_pure (a : α) : (pure a : Acct ρ α).entries = [] := rfl

@[simp] theorem entries_bind (p : Acct ρ α) (f : α → Acct ρ β) :
    (p >>= f).entries = p.entries ++ (f p.result).entries := rfl

end Acct

theorem Acct.entries_ite (c : Prop) [Decidable c] (p q : Acct ρ α) :
    (if c then p else q).entries = if c then p.entries else q.entries :=
  apply_ite _ _ _ _

def acquire (r : ρ) : Acct ρ Unit := { result := (), entries := [.acquire r] }

def use (r : ρ) : Acct ρ Unit := { result := (), entries := [.use r] }

def release (r : ρ) : Acct ρ Unit := { result := (), entries := [.release r] }

def acquireAll (rs : List ρ) : Acct ρ Unit := { result := (), entries := rs.map .acquire }

def useAll (rs : List ρ) : Acct ρ Unit := { result := (), entries := rs.map .use }

def releaseAll (rs : List ρ) : Acct ρ Unit := { result := (), entries := rs.map .release }

/-- One more reference on what is held already. -/
def retain (r : ρ) : Acct ρ Unit := do
  use r
  acquire r

def retainAll : List ρ → Acct ρ Unit
  | [] => pure ()
  | r :: rs => do
    retain r
    retainAll rs

@[simp] theorem entries_acquire (r : ρ) : (acquire r).entries = [.acquire r] := rfl

@[simp] theorem entries_release (r : ρ) : (release r).entries = [.release r] := rfl

@[simp] theorem entries_acquireAll (rs : List ρ) : (acquireAll rs).entries = rs.map .acquire := rfl

@[simp] theorem entries_useAll (rs : List ρ) : (useAll rs).entries = rs.map .use := rfl

@[simp] theorem entries_releaseAll (rs : List ρ) : (releaseAll rs).entries = rs.map .release := rfl

/-- A resource that is there under a condition. -/
def given (c : Bool) (r : ρ) : List ρ := if c then [r] else []

@[simp] theorem given_true (r : ρ) : given true r = [r] := rfl

@[simp] theorem given_false (r : ρ) : given false r = [] := rfl

/-- Every entry of the ledger is about a resource with a property. -/
def Acct.Within (P : ρ → Prop) (p : Acct ρ α) : Prop := ∀ x ∈ p.entries, P x.resource

namespace Acct

variable {P : ρ → Prop} {p q : Acct ρ α} {r : ρ} {rs : List ρ}

@[simp] theorem within_pure (a : α) : (pure a : Acct ρ α).Within P := nofun

@[simp] theorem within_bind {f : α → Acct ρ β} :
    (p >>= f).Within P ↔ p.Within P ∧ (f p.result).Within P := List.forall_mem_append

@[simp] theorem within_ite {c : Prop} [Decidable c] :
    (if c then p else q).Within P ↔ (c → p.Within P) ∧ (¬c → q.Within P) := by
  split <;> simp [*]

@[simp] theorem within_acquire : (acquire r).Within P ↔ P r := List.forall_mem_singleton

@[simp] theorem within_release : (release r).Within P ↔ P r := List.forall_mem_singleton

@[simp] theorem within_acquireAll : (acquireAll rs).Within P ↔ ∀ r ∈ rs, P r :=
  List.forall_mem_map

@[simp] theorem within_useAll : (useAll rs).Within P ↔ ∀ r ∈ rs, P r := List.forall_mem_map

@[simp] theorem within_releaseAll : (releaseAll rs).Within P ↔ ∀ r ∈ rs, P r :=
  List.forall_mem_map

end Acct

/-- Every resource that is given back has a property. -/
def Acct.Releases (P : ρ → Prop) (p : Acct ρ α) : Prop := ∀ r, .release r ∈ p.entries → P r

namespace Acct

variable {P : ρ → Prop} {p q : Acct ρ α} {r : ρ} {rs : List ρ}

theorem Within.releases (h : p.Within P) : p.Releases P := fun _ hr => h _ hr

@[simp] theorem releases_pure (a : α) : (pure a : Acct ρ α).Releases P := nofun

@[simp] theorem releases_bind {f : α → Acct ρ β} :
    (p >>= f).Releases P ↔ p.Releases P ∧ (f p.result).Releases P := by
  simp only [Releases, entries_bind, List.mem_append, or_imp, forall_and]

@[simp] theorem releases_ite {c : Prop} [Decidable c] :
    (if c then p else q).Releases P ↔ (c → p.Releases P) ∧ (¬c → q.Releases P) := by
  split <;> simp [*]

@[simp] theorem releases_acquireAll : (acquireAll rs).Releases P := by
  simp [Releases]

@[simp] theorem releases_useAll : (useAll rs).Releases P := by
  simp [Releases]

@[simp] theorem releases_acquire : (acquire r).Releases P := by
  simp [Releases]

@[simp] theorem releases_use : (use r).Releases P := by
  simp [Releases, use]

@[simp] theorem releases_releaseAll : (releaseAll rs).Releases P ↔ ∀ r ∈ rs, P r := by
  simp [Releases]

@[simp] theorem releases_release : (release r).Releases P ↔ P r := by
  simp [Releases]

end Acct

theorem forall_mem_given {P : ρ → Prop} {c : Bool} {r : ρ} :
    (∀ s ∈ given c r, P s) ↔ (c = true → P r) := by
  cases c <;> simp

theorem mem_given {c : Bool} {r r' : ρ} : r' ∈ given c r ↔ c = true ∧ r' = r := by
  cases c <;> simp

theorem coe_cons (r : ρ) (rs : List ρ) : ((r :: rs : List ρ) : Multiset ρ) = {r} + ↑rs := rfl

theorem coe_append (rs ss : List ρ) : ((rs ++ ss : List ρ) : Multiset ρ) = ↑rs + ↑ss := rfl

section Triple

variable [DecidableEq ρ]

/-- From holding `m`, a computation comes to hold what `Q` says about its result. -/
def Triple (m : Multiset ρ) (p : Acct ρ α) (Q : α → Multiset ρ) : Prop :=
  settle m p.entries = some (Q p.result)

namespace Triple

variable {m : Multiset ρ} {p : Acct ρ α} {Q : α → Multiset ρ} {r : ρ} {rs : List ρ}
  {f : Unit → Acct ρ α}

theorem of_eq {m' : Multiset ρ} (h : m = m') (hp : Triple m' p Q) : Triple m p Q := h ▸ hp

theorem pure {a : α} (h : m = Q a) : Triple m (Pure.pure a) Q := congrArg some h

theorem bind {g : α → Acct ρ β} {Q' : β → Multiset ρ} (hp : Triple m p Q)
    (hg : Triple (Q p.result) (g p.result) Q') : Triple m (p >>= g) Q' := by
  rw [Triple, Acct.entries_bind, settle_append, hp, Option.bind_some, hg, Acct.result_bind]

theorem ite {c : Prop} [Decidable c] {q : Acct ρ α} (hp : c → Triple m p Q)
    (hq : ¬c → Triple m q Q) : Triple m (if c then p else q) Q := by
  split
  next h => exact hp h
  next h => exact hq h

/-- What else is held stays as it is. -/
theorem frame (hp : Triple m p Q) (k : Multiset ρ) : Triple (m + k) p fun a => Q a + k :=
  settle_add hp k

theorem acquireAll : Triple m (acquireAll rs) fun _ => (rs : Multiset ρ) + m := by
  rw [Triple, Ledger.acquireAll]
  induction rs generalizing m with
  | nil => exact congrArg some (zero_add m).symm
  | cons r rs ih =>
    rw [List.map_cons, settle_cons, Entry.post, Option.bind_some, ih, coe_cons]
    exact congrArg some (by abel)

theorem useAll (h : ∀ r ∈ rs, r ∈ m) : Triple m (useAll rs) fun _ => m := by
  rw [Triple, Ledger.useAll]
  induction rs with
  | nil => rfl
  | cons r rs ih =>
    rw [List.map_cons, settle_cons, Entry.post, if_pos (h r List.mem_cons_self)]
    exact ih fun s hs => h s (List.mem_cons_of_mem r hs)

theorem releaseAll : Triple ((rs : Multiset ρ) + m) (releaseAll rs) fun _ => m := by
  rw [Triple, Ledger.releaseAll]
  induction rs with
  | nil => exact congrArg some (zero_add m)
  | cons r rs ih =>
    have hr : r ∈ ((r :: rs : List ρ) : Multiset ρ) + m :=
      Multiset.mem_add.mpr (Or.inl List.mem_cons_self)
    rw [List.map_cons, settle_cons, Entry.post, if_pos hr, Option.bind_some, coe_cons, add_assoc,
      Multiset.singleton_add, Multiset.erase_cons_head]
    exact ih

theorem acquire : Triple m (acquire r) fun _ => {r} + m := rfl

theorem use (h : r ∈ m) : Triple m (use r) fun _ => m := by
  have huse : Triple m (Ledger.useAll [r]) fun _ => m :=
    useAll fun s hs => List.mem_singleton.mp hs ▸ h
  exact huse

theorem retain (h : r ∈ m) : Triple m (retain r) fun _ => {r} + m := bind (use h) acquire

theorem retainAll (h : ∀ r ∈ rs, r ∈ m) : Triple m (retainAll rs) fun _ => (rs : Multiset ρ) + m := by
  induction rs generalizing m with
  | nil => exact pure (zero_add m).symm
  | cons r rs ih =>
    refine bind (retain (h r List.mem_cons_self)) ?_
    have hrs : ∀ s ∈ rs, s ∈ {r} + m := fun s hs =>
      Multiset.mem_add.mpr (Or.inr (h s (List.mem_cons_of_mem r hs)))
    have heq : (rs : Multiset ρ) + ({r} + m) = ((r :: rs : List ρ) : Multiset ρ) + m := by
      rw [coe_cons]
      abel
    exact heq ▸ ih hrs

theorem release : Triple ({r} + m) (release r) fun _ => m := by
  have hreleaseAll : Triple (([r] : List ρ) + m : Multiset ρ) (Ledger.releaseAll [r]) fun _ => m :=
    releaseAll
  exact hreleaseAll

/-! The rules again, for the first step of a computation. -/

theorem acquire_then (h : Triple ({r} + m) (f ()) Q) : Triple m (Ledger.acquire r >>= f) Q :=
  bind acquire h

theorem acquireAll_then (h : Triple ((rs : Multiset ρ) + m) (f ()) Q) :
    Triple m (Ledger.acquireAll rs >>= f) Q :=
  bind acquireAll h

theorem use_then (hr : r ∈ m) (h : Triple m (f ()) Q) : Triple m (Ledger.use r >>= f) Q :=
  bind (use hr) h

theorem release_then (m' : Multiset ρ) (hm : m = {r} + m') (h : Triple m' (f ()) Q) :
    Triple m (Ledger.release r >>= f) Q :=
  of_eq hm (bind release h)

theorem retain_then (hr : r ∈ m) (h : Triple ({r} + m) (f ()) Q) :
    Triple m (Ledger.retain r >>= f) Q :=
  bind (retain hr) h

theorem retainAll_then (hr : ∀ r ∈ rs, r ∈ m) (h : Triple ((rs : Multiset ρ) + m) (f ()) Q) :
    Triple m (Ledger.retainAll rs >>= f) Q :=
  bind (retainAll hr) h

theorem useAll_then (hr : ∀ r ∈ rs, r ∈ m) (h : Triple m (f ()) Q) :
    Triple m (Ledger.useAll rs >>= f) Q :=
  bind (useAll hr) h

theorem releaseAll_then (m' : Multiset ρ) (hm : m = (rs : Multiset ρ) + m') (h : Triple m' (f ()) Q) :
    Triple m (Ledger.releaseAll rs >>= f) Q :=
  of_eq hm (bind releaseAll h)

/-- An exit gives back what is not to be held any more. -/
theorem exit {a : α} (h : m = (rs : Multiset ρ) + Q a) :
    Triple m (Ledger.releaseAll rs >>= fun _ => Pure.pure a) Q :=
  releaseAll_then (Q a) h (pure rfl)

end Triple

/-- Whatever else is held, a computation leaves what `F` says about its result. -/
def Leaves (F : α → Multiset ρ) (p : Acct ρ α) : Prop := ∀ m, Triple m p fun a => F a + m

namespace Leaves

variable {F : α → Multiset ρ} {p q : Acct ρ α}

theorem pure {a : α} (h : F a = 0) : Leaves F (Pure.pure a : Acct ρ α) :=
  fun m => Triple.pure (by rw [h, zero_add])

theorem ite {c : Prop} [Decidable c] (hp : c → Leaves F p) (hq : ¬c → Leaves F q) :
    Leaves F (if c then p else q) :=
  fun m => Triple.ite (fun h => hp h m) (fun h => hq h m)

/-- A step that leaves nothing. -/
theorem bind {G : β → Multiset ρ} {g : α → Acct ρ β} (hp : Leaves (fun _ => 0) p)
    (hg : Leaves G (g p.result)) : Leaves G (p >>= g) :=
  fun m => Triple.bind (hp m) ((zero_add m).symm ▸ hg m)

/-- Something is taken and released at once. -/
theorem acquire_release (r : ρ) (hp : Leaves F p) :
    Leaves F (do Ledger.acquire r; Ledger.release r; p) :=
  fun m => Triple.acquire_then (Triple.release_then m rfl (hp m))

end Leaves

end Triple

/-! ## Ledgers of some of the resources -/

section Project

variable {τ : Type*} (f : ρ → Option τ)

/-- An entry about a resource that counts. -/
def Entry.project : Entry ρ → Option (Entry τ)
  | acquire r => (f r).map acquire
  | use r => (f r).map use
  | release r => (f r).map release

/-- The entries about the resources that count. -/
def project (l : List (Entry ρ)) : List (Entry τ) := l.filterMap (Entry.project f)

variable {f}

theorem release_mem_project {l : List (Entry ρ)} {t : τ} :
    .release t ∈ project f l ↔ ∃ r, .release r ∈ l ∧ f r = some t := by
  rw [project, List.mem_filterMap]
  constructor
  · rintro ⟨x, hx, ht⟩
    cases x with
    | acquire r => simp [Entry.project] at ht
    | use r => simp [Entry.project] at ht
    | release r => exact ⟨r, hx, by simpa [Entry.project] using ht⟩
  · rintro ⟨r, hr, ht⟩
    exact ⟨.release r, hr, by simp [Entry.project, ht]⟩

/-- If only what does not count is given back, then nothing that counts is. -/
theorem Acct.Releases.release_not_mem_project {p : Acct ρ α}
    (h : p.Releases fun r => f r = none) (t : τ) : .release t ∉ project f p.entries := by
  intro ht
  obtain ⟨r, hr, hf⟩ := release_mem_project.mp ht
  rw [h r hr] at hf
  cases hf

end Project

/-! ## What several owners have -/

/-- What the owner that is found has, and what all others have. -/
theorem coe_flatMap_find {σ : Type*} {p : σ → Bool} {x : σ} {l : List σ} (h : l.find? p = some x)
    (f : σ → List ρ) :
    (l.flatMap f : Multiset ρ) = ↑(f x) + ↑((l.eraseP p).flatMap f) := by
  induction l with
  | nil => cases h
  | cons y ys ih =>
    rw [List.flatMap_cons, coe_append]
    by_cases hy : p y = true
    · rw [List.find?_cons_of_pos hy] at h
      obtain rfl := Option.some.inj h
      rw [List.eraseP_cons_of_pos hy]
    · rw [List.find?_cons_of_neg hy] at h
      rw [List.eraseP_cons_of_neg hy, ih h, List.flatMap_cons, coe_append, add_left_comm]

/-- Owners that are all found are found each. -/
theorem exists_of_mem_mapM {κ σ : Type} {f : κ → Option σ} {ks : List κ} {xs : List σ}
    (h : ks.mapM f = some xs) : ∀ x ∈ xs, ∃ k ∈ ks, f k = some x := by
  induction ks generalizing xs with
  | nil =>
    obtain rfl := Option.some.inj h
    simp
  | cons k ks ih =>
    rw [List.mapM_cons] at h
    obtain ⟨x, hx, h⟩ := Option.bind_eq_some_iff.mp h
    obtain ⟨ys, hys, h⟩ := Option.bind_eq_some_iff.mp h
    obtain rfl := Option.some.inj h
    refine List.forall_mem_cons.mpr ⟨⟨k, List.mem_cons_self, hx⟩, fun y hy => ?_⟩
    obtain ⟨k', hk', hy⟩ := ih hys y hy
    exact ⟨k', List.mem_cons_of_mem k hk', hy⟩

/-! ## Runs -/

section Run

open Transcript

variable {σ ι ω : Type*} (entries : ω → List (Entry ρ))

/-- The entries of a run. -/
def log (t : List (ι × ω)) : List (Entry ρ) := t.flatMap fun p => entries p.2

@[simp] theorem log_nil : log entries ([] : List (ι × ω)) = [] := rfl

theorem log_concat (t : List (ι × ω)) (p : ι × ω) :
    log entries (t ++ [p]) = log entries t ++ entries p.2 := by
  rw [log, log, List.flatMap_append, List.flatMap_singleton]

variable [DecidableEq ρ] {entries} {step : σ → ι → ω × σ} {owned : σ → Multiset ρ} {I : σ → Prop}

/-- What the steps of an object do to what it owns, a run does. -/
theorem settle_run
    (hstep : ∀ s i, I s →
      settle (owned s) (entries (step s i).1) = some (owned (step s i).2) ∧ I (step s i).2)
    {s : σ} (h : I s) (is : List ι) :
    settle (owned s) (log entries (run step s is).1) = some (owned (run step s is).2) ∧
      I (run step s is).2 := by
  refine run_invariant (t := [])
    (I := fun t s' => settle (owned s) (log entries t) = some (owned s') ∧ I s') ?_ ⟨rfl, h⟩ is
  rintro t s' i ⟨ht, hs'⟩
  obtain ⟨hentries, hI⟩ := hstep s' i hs'
  rw [log_concat, settle_append, ht, Option.bind_some]
  exact ⟨hentries, hI⟩

omit [DecidableEq ρ] in
/-- If, in the states of a run, a property of ledgers that is passed on to their beginnings outlasts
a step exactly under a condition, then the ledger of the run has it exactly if every step is made
under its condition. -/
theorem log_iff_along {G : List (Entry ρ) → Prop} {J : List (Entry ρ) → σ → Prop}
    {C : σ → ι → Prop} (hG : ∀ l l', G (l ++ l') → G l)
    (hJ : ∀ l s i, J l s → J (l ++ entries (step s i).1) (step s i).2)
    (hstep : ∀ l s i, J l s → G l → (G (l ++ entries (step s i).1) ↔ C s i))
    {l : List (Entry ρ)} {s : σ} (h : J l s) (hl : G l) (is : List ι) :
    G (l ++ log entries (run step s is).1) ↔ Along step C s is := by
  induction is generalizing l s with
  | nil => simpa [Along] using hl
  | cons i is ih =>
    have hlog : l ++ log entries (run step s (i :: is)).1 =
        l ++ entries (step s i).1 ++ log entries (run step (step s i).2 is).1 := by
      rw [run_cons, log, log, List.flatMap_cons, List.append_assoc]
    rw [hlog, Along, ← hstep l s i h hl]
    constructor
    · intro hall
      have hhead := hG _ _ hall
      exact ⟨hhead, (ih (hJ l s i h) hhead).mp hall⟩
    · rintro ⟨hhead, htail⟩
      exact (ih (hJ l s i h) hhead).mpr htail

end Run

end Ledger
