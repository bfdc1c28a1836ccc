import OpenSSLWasm.X509.VerifyChain

/-!
# What the options of a verification make sure of

A successful `verify_chain` should mean that everything that was asked for was checked. Identities
are installed by setters whose results are ignored, and one of the two revocation flags does
nothing without the other.

## Main definitions

* `IdentityChecked`: the leaf has the identities that were given;
* `mustCheck` and `RevocationChecked`: the certificates whose revocation was to be checked are not
  revoked.

## Main results

* `identityChecked_iff`: identities are checked exactly if libcrypto can install them;
* `revocationChecked_iff`: revocation is checked as asked exactly if the option for the whole chain
  comes with the one for the leaf.
-/

namespace OpenSSLWasm.X509

/-! ## Identities -/

/-- Whatever the verification, the store, the certificates and the outcome: a successful call means
that the leaf has the name and the address that were given. -/
def IdentityChecked (N : IdentitySyntax) (opts : VerifyOptions) : Prop :=
  ∀ (κ C : Type) (V : X509Lib κ C), V.identity = N → V.Documented → ∀ store leaf extra chain,
    verifyChain V store leaf extra opts = .ok chain →
      (∀ name ∈ opts.hostname, V.matchesHost leaf name = true) ∧
        ∀ ip ∈ opts.ip, ∃ a, N.parseIp ip = some a ∧ V.matchesIp leaf a = true

/-- A certificate that has every identity there is shows which ones are checked. -/
theorem IdentityChecked.installs {N : IdentitySyntax} {opts : VerifyOptions}
    (h : IdentityChecked N opts) :
    (∀ name ∈ opts.hostname, name ≠ [] ∧ N.acceptsHost name = true) ∧
      ∀ ip ∈ opts.ip, (N.parseIp ip).isSome = true := by
  have hV := referenceX509_documented N true
  obtain ⟨hhost, hip⟩ := h Unit Unit (referenceX509 N true) rfl hV () () [] [()]
    (verifyChain_reference N (Or.inr rfl))
  refine ⟨fun name hname => hV.acceptsHost_of_matchesHost (hhost name hname), ?_⟩
  intro ip hmem
  obtain ⟨a, ha, -⟩ := hip ip hmem
  rw [ha]
  rfl

/-- The identities of the options are checked exactly if libcrypto can install them: the name is
not empty and not refused, and the address can be parsed. -/
theorem identityChecked_iff (N : IdentitySyntax) (opts : VerifyOptions) :
    IdentityChecked N opts ↔
      (∀ name ∈ opts.hostname, name ≠ [] ∧ N.acceptsHost name = true) ∧
        ∀ ip ∈ opts.ip, (N.parseIp ip).isSome = true := by
  refine ⟨IdentityChecked.installs, ?_⟩
  rintro ⟨hhost, hip⟩ κ C V rfl hV store leaf extra chain hok
  obtain ⟨-, hname, haddr, -⟩ := verifyChain_eq_ok hV hok
  constructor
  · intro name hmem
    obtain ⟨hnil, haccepts⟩ := hhost name hmem
    exact hname name hmem hnil haccepts
  · intro ip hmem
    obtain ⟨a, ha⟩ := Option.isSome_iff_exists.mp (hip ip hmem)
    -- an address that can be parsed has no NUL, so the copy is the whole string
    have hnul : (0 : Byte) ∉ ip := by
      intro hnul
      rw [V.identity.parseIp_of_nul ip hnul] at ha
      cases ha
    refine ⟨a, ha, haddr ip hmem a ?_⟩
    rw [cString_of_not_mem hnul]
    exact ha

/-- Names without a NUL, except for one at the end, and the address 127.0.0.1. -/
def loopbackIdentity : IdentitySyntax where
  acceptsHost name := if 1 < name.length then decide (0 ∉ name.dropLast) else decide (0 ∉ name)
  parseIp s := if s = [49, 50, 55, 46, 48, 46, 48, 46, 49] then some [127, 0, 0, 1] else none
  parseIp_of_nul s hs := by
    refine if_neg ?_
    rintro rfl
    exact absurd hs (by decide)

/-- The name `a`, a NUL and `b`, and the empty name, are not checked at all; of the address
127.0.0.1, a NUL and `x`, what comes before the NUL is. -/
theorem not_identityChecked_nul :
    ¬IdentityChecked loopbackIdentity { hostname := some [97, 0, 98] } ∧
      ¬IdentityChecked loopbackIdentity { hostname := some [] } ∧
      ¬IdentityChecked loopbackIdentity
        { ip := some [49, 50, 55, 46, 48, 46, 48, 46, 49, 0, 120] } := by
  -- the first is refused, the second clears the check, the third does not parse as a whole
  refine ⟨fun h => ?_, fun h => ?_, fun h => ?_⟩
  · exact absurd (h.installs.1 [97, 0, 98] rfl).2 (by decide)
  · exact (h.installs.1 [] rfl).1 rfl
  · exact absurd (h.installs.2 _ rfl) (by decide)

/-! ## Revocation -/

/-- The certificates whose revocation the options ask to check. -/
def mustCheck {C : Type} (opts : VerifyOptions) (leaf : C) (chain : List C) : List C :=
  if opts.crlCheckAll then chain else if opts.crlCheck then [leaf] else []

/-- Whatever the verification, the store with its CRLs, the certificates and the outcome: a
successful call means that the certificates to be checked were checked, and are not revoked. -/
def RevocationChecked (N : IdentitySyntax) (opts : VerifyOptions) : Prop :=
  ∀ (κ C : Type) (V : X509Lib κ C), V.identity = N → V.Documented → ∀ store leaf extra chain,
    verifyChain V store leaf extra opts = .ok chain →
      ∀ c ∈ mustCheck opts leaf chain, V.notRevoked store chain c = true

/-- Revocation is checked as the options ask exactly if the one for the whole chain comes with the
one for the leaf. -/
theorem revocationChecked_iff (N : IdentitySyntax) (opts : VerifyOptions) :
    RevocationChecked N opts ↔ (opts.crlCheckAll = true → opts.crlCheck = true) := by
  constructor
  · intro h hall
    by_contra hcrl
    rw [Bool.not_eq_true] at hcrl
    -- a certificate that is revoked, and nobody asks
    have hrevoked := h Unit Unit (referenceX509 N false) rfl (referenceX509_documented N false)
      () () [] [()] (verifyChain_reference N (Or.inl hcrl)) () (by simp [mustCheck, hall])
    cases hrevoked
  · rintro h κ C V rfl hV store leaf extra chain hok c hc
    obtain ⟨hhead, -, -, hrevoked⟩ := verifyChain_eq_ok hV hok
    refine hrevoked c ?_
    rw [checkedForRevocation_verifyParam]
    -- with both options the whole chain is checked, with the first alone the leaf
    by_cases hall : opts.crlCheckAll = true
    · rw [mustCheck, if_pos hall] at hc
      rwa [if_pos (h hall), if_pos hall]
    · rw [mustCheck, if_neg hall] at hc
      by_cases hcrl : opts.crlCheck = true
      · rw [if_pos hcrl] at hc
        obtain ⟨tail, rfl⟩ := List.head?_eq_some_iff.mp hhead
        rwa [if_pos hcrl, if_neg hall, List.take_succ_cons, List.take_zero]
      · rw [if_neg hcrl] at hc
        cases hc

/-- The whole chain is to be checked, but not the leaf: a revoked certificate is verified. -/
theorem not_revocationChecked_all : ¬RevocationChecked loopbackIdentity { crlCheckAll := true } := by
  intro h
  have hrevoked := h Unit Unit (referenceX509 loopbackIdentity false) rfl
    (referenceX509_documented loopbackIdentity false) () () [] [()]
    (verifyChain_reference loopbackIdentity (Or.inl rfl)) () (by decide)
  cases hrevoked

end OpenSSLWasm.X509
