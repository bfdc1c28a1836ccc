import OpenSSLWasm.Lib.SizeProbe
import OpenSSLWasm.Lib.Transcript
import OpenSSLWasm.Support

/-!
# Signing through the bridge

`src/provider_wit.c` hands the signature contexts of the provider that is composed in to OpenSSL's
EVP layer, which asks for the size of a signature before it makes one. The one-shot functions
answer with a fixed size; the last call of a digest-sign answers by signing.

## Main definitions

* `SignatureBackend`: the signature contexts behind the bridge;
* `witSignatureSign`, `witSignatureDigestSign`, `witSignatureDigestSignFinal`: the entry points;
* `ProbesSafe`: asking for the size makes no difference to a signing operation.

## Main results

* `probesSafe_iff`: the operations that are safe are the one-shot ones whose signature has at most
  512 bytes, and those that have nothing to sign.
-/

namespace OpenSSLWasm.Provider

open SizeProbe

variable {σ : Type*}

/-- The `signature-context` resource: its operations refuse or answer, and leave a context. -/
structure SignatureBackend (σ : Type*) where
  sign : σ → List Byte → Option (List Byte) × σ
  digestSignUpdate : σ → List Byte → Bool × σ
  digestSignFinal : σ → Option (List Byte) × σ
  digestSign : σ → List Byte → Option (List Byte) × σ

/-- A final operation consumes the digest that was accumulated: where it gave a signature, there is
nothing left to sign. -/
def SignatureBackend.Consumes (B : SignatureBackend σ) : Prop :=
  ∀ c sig, (B.digestSignFinal c).1 = some sig →
    (B.digestSignFinal (B.digestSignFinal c).2).1 = none

/-! ## The entry points -/

/-- The end of the one-shot functions: an error of the provider, a signature that does not fit, or
one that does. -/
def copySignature (sigsize : ℕ) : Option (List Byte) × σ → Answer Byte × σ
  | (none, c) => (.failed none, c)
  | (some out, c) =>
    if sigsize < out.length then (.failed (some out.length), c) else (.result out, c)

section

variable (B : SignatureBackend σ)

/-- `sig` is the size of the buffer, if there is one. -/
def witSignatureSign (tbs : List Byte) (c : σ) (sig : Option ℕ) : Answer Byte × σ :=
  match sig with
  | none => (.size 512, c)
  | some sigsize => copySignature sigsize (B.sign c tbs)

def witSignatureDigestSignUpdate (c : σ) (data : List Byte) : Bool × σ := B.digestSignUpdate c data

def witSignatureDigestSignFinal (c : σ) (sig : Option ℕ) : Answer Byte × σ :=
  match B.digestSignFinal c with
  | (none, c') => (.failed none, c')
  | (some out, c') =>
    match sig with
    -- the signature was made, and is thrown away
    | none => (.size out.length, c')
    | some sigsize => if sigsize < out.length then (.failed none, c') else (.result out, c')

def witSignatureDigestSign (tbs : List Byte) (c : σ) (sig : Option ℕ) : Answer Byte × σ :=
  match sig with
  | none => (.size 512, c)
  | some sigsize => copySignature sigsize (B.digestSign c tbs)

end

theorem result?_copySignature (sigsize : ℕ) (o : Option (List Byte) × σ) :
    (copySignature sigsize o).1.result? = o.1.filter (·.length ≤ sigsize) := by
  obtain ⟨_ | out, c⟩ := o
  · rfl
  · rw [copySignature]
    by_cases h : sigsize < out.length
    · rw [if_pos h, Option.filter_some, if_neg (by simpa using h)]
      rfl
    · rw [if_neg h, Option.filter_some, if_pos (by simpa using h)]
      rfl

/-! ## Signing operations -/

/-- The signing operations of the EVP layer on a context that was initialised. -/
inductive Signing
  | sign (tbs : List Byte)
  | digestSign (tbs : List Byte)
  /-- Some updates, and the end of the digest-sign. -/
  | digestSignFinal (updates : List (List Byte))

namespace Signing

variable (B : SignatureBackend σ)

/-- The entry point that is asked for the size and for the signature. -/
def call : Signing → σ → Option ℕ → Answer Byte × σ
  | sign tbs => witSignatureSign B tbs
  | digestSign tbs => witSignatureDigestSign B tbs
  | digestSignFinal _ => witSignatureDigestSignFinal B

/-- The operation of the provider itself. -/
def direct : Signing → σ → Option (List Byte) × σ
  | sign tbs => fun c => B.sign c tbs
  | digestSign tbs => fun c => B.digestSign c tbs
  | digestSignFinal _ => B.digestSignFinal

/-- The context in which the entry point is called first. -/
def context (c : σ) : Signing → σ
  | sign _ => c
  | digestSign _ => c
  | digestSignFinal updates => (Transcript.run (witSignatureDigestSignUpdate B) c updates).2

/-- A one-shot signature has at most 512 bytes; the end of a digest-sign has nothing to sign, and
leaves the context alone. -/
def Announced (c : σ) : Signing → Prop
  | sign tbs => ∀ sig, (B.sign c tbs).1 = some sig → sig.length ≤ 512
  | digestSign tbs => ∀ sig, (B.digestSign c tbs).1 = some sig → sig.length ≤ 512
  | digestSignFinal updates =>
    let c' := (digestSignFinal updates).context B c
    B.digestSignFinal c' = (none, c')

end Signing

/-- However often the size is asked for: the context stays the same, the size is large enough, and
the signature is that of a direct call. -/
def ProbesSafe (B : SignatureBackend σ) (c : σ) (e : Signing) : Prop :=
  Transparent (e.call B) (e.direct B) (e.context B c)

/-- Asking for the size makes no difference exactly to the one-shot operations whose signature has
at most 512 bytes, and to the end of a digest-sign that has nothing to sign. -/
theorem probesSafe_iff {B : SignatureBackend σ} (hB : B.Consumes) (c : σ) (e : Signing) :
    ProbesSafe B c e ↔ e.Announced B c := by
  cases e with
  | sign tbs => exact transparent_iff_of_announced rfl (result?_copySignature _ _)
  | digestSign tbs => exact transparent_iff_of_announced rfl (result?_copySignature _ _)
  | digestSignFinal updates =>
    apply transparent_iff_of_measured
    · -- the question is answered by the operation of the provider
      rw [Signing.call, Signing.direct, witSignatureDigestSignFinal]
      rcases B.digestSignFinal (Signing.context B c (.digestSignFinal updates)) with ⟨_ | r, c'⟩ <;>
        rfl
    · exact hB _

/-- A provider whose signatures all have `n` bytes; a context is the data that was accumulated, if
a digest-sign is under way. -/
def referenceBackend (n : ℕ) : SignatureBackend (Option (List Byte)) where
  sign c _ := (some (List.replicate n 1), c)
  digestSignUpdate
    | none, _ => (false, none)
    | some acc, data => (true, some (acc ++ data))
  digestSignFinal
    | none => (none, none)
    | some _ => (some (List.replicate n 1), none)
  digestSign c _ := (some (List.replicate n 1), c)

theorem referenceBackend_consumes (n : ℕ) : (referenceBackend n).Consumes := by
  rintro (_ | acc) sig h
  · cases h
  · rfl

/-- A signature of 64 bytes is announced. -/
theorem probesSafe_reference : ProbesSafe (referenceBackend 64) none (.sign [1, 2, 3]) := by
  refine (probesSafe_iff (referenceBackend_consumes 64) none (.sign [1, 2, 3])).mpr ?_
  rintro sig h
  obtain rfl := Option.some.inj h
  decide

/-- The question for the size of a digest-sign takes the digest away, and the 1024 bytes of a
signature with an RSA key of 8192 bits are more than was announced. -/
theorem not_probesSafe :
    ¬ProbesSafe (referenceBackend 64) (some []) (.digestSignFinal [[1, 2, 3]]) ∧
      ¬ProbesSafe (referenceBackend 1024) none (.sign [1, 2, 3]) := by
  refine ⟨fun h => ?_, fun h => ?_⟩
  · have hlost : (none : Option (List Byte)) = some [1, 2, 3] := h.probe_eq
    cases hlost
  · have hfits : (List.replicate 1024 (1 : Byte)).length ≤ 512 := h.fits 0 512 rfl _ rfl
    rw [List.length_replicate] at hfits
    omega

end OpenSSLWasm.Provider
