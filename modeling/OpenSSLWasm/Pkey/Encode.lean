import OpenSSLWasm.Pkey.Basic

/-!
# Encoding keys

`encode_key` in `src/pkey.c` picks the structure and the encoding of a key, and hands the key to the
encoders of libcrypto, which enter the model as a parameter. A passphrase is passed on for one of
the formats.

## Main definitions

* `SaveOptions`: the options of the interface;
* `EncoderCtx` and `EncoderLib`: what the encoders are asked for, and what they answer;
* `encodeKey`, `savePrivate`, `savePublic`: the calls;
* `KeepsSecret`: with a passphrase, a private key is encrypted under it, or not saved.

## Main results

* `savePrivate_passphrase`: for `pkcs8` the key is kept secret, and the other formats ignore the
  passphrase.
-/

namespace OpenSSLWasm.Pkey

/-! ## Options and encoders -/

/-- `key-format`. -/
inductive KeyFormat
  | traditional
  | pkcs8
  | spki
  deriving DecidableEq, Repr

/-- `encoding`. -/
inductive Encoding
  | pem
  | der
  deriving DecidableEq, Repr

/-- `save-options`. -/
structure SaveOptions where
  format : KeyFormat
  encoding : Encoding
  passphrase : Option (List Byte) := none
  deriving DecidableEq, Repr

/-- The structures that the encoders are asked for. -/
inductive EncoderStructure
  | privateKeyInfo
  | subjectPublicKeyInfo
  | typeSpecific
  deriving DecidableEq, Repr

/-- The parts of a key that are to be encoded. -/
inductive Selection
  | keypair
  | publicKey
  deriving DecidableEq, Repr

/-- `OSSL_ENCODER_CTX`. -/
structure EncoderCtx (κ : Type) where
  pkey : κ
  selection : Selection
  outputType : Encoding
  outputStructure : EncoderStructure
  cipher : Option String := none
  passphrase : Option (List Byte) := none

/-- The encoders of libcrypto, over a type `κ` of keys. Salts and initial vectors are taken from a
source of randomness `ρ`. -/
structure EncoderLib (κ ρ : Type) where
  /-- `OSSL_ENCODER_CTX_new_for_pkey` succeeds. -/
  newForPkey : κ → Selection → Encoding → EncoderStructure → Bool
  /-- `OSSL_ENCODER_CTX_set_cipher` succeeds. -/
  takesCipher : String → Bool
  /-- `OSSL_ENCODER_CTX_set_passphrase` succeeds. -/
  takesPassphrase : List Byte → Bool
  bioNew : Bool
  supportsEncryption : EncoderStructure → Bool
  /-- The encoding in the clear. -/
  clear : κ → Selection → EncoderStructure → Encoding → Option (List Byte)
  /-- The encoding under a cipher and a passphrase. -/
  encrypted : κ → Selection → EncoderStructure → Encoding → String → List Byte → ρ →
    Option (List Byte)
  /-- `ERR_peek_last_error`, after a failure to encode. -/
  peekLastError : BitVec 32

/-- What the interface relies on. -/
structure EncoderLib.Documented {κ ρ : Type} (E : EncoderLib κ ρ) : Prop where
  supports_privateKeyInfo : E.supportsEncryption .privateKeyInfo = true
  takesCipher_aes : E.takesCipher "AES-256-CBC" = true
  takesPassphrase : ∀ p, E.takesPassphrase p = true
  /-- What is encrypted is not the encoding in the clear. -/
  encrypted_ne_clear : ∀ {k sel st enc cipher p r bytes},
    E.encrypted k sel st enc cipher p r = some bytes → E.clear k sel st enc ≠ some bytes

section

variable {κ ρ : Type} (E : EncoderLib κ ρ)

/-- `OSSL_ENCODER_to_bio`: what is written is encrypted if a cipher was set and the structure can
be encrypted. -/
def encoderToBio (r : ρ) (ectx : EncoderCtx κ) : Option (List Byte) :=
  match ectx.cipher with
  | some cipher =>
    -- otherwise the cipher is ignored without a word
    if E.supportsEncryption ectx.outputStructure then
      ectx.passphrase.bind fun p =>
        E.encrypted ectx.pkey ectx.selection ectx.outputStructure ectx.outputType cipher p r
    else E.clear ectx.pkey ectx.selection ectx.outputStructure ectx.outputType
  | none => E.clear ectx.pkey ectx.selection ectx.outputStructure ectx.outputType

/-- The setters of the passphrase and the cipher, whose results are ignored. -/
def setPassphrase (ectx : EncoderCtx κ) (p : List Byte) : EncoderCtx κ :=
  let ectx := if E.takesPassphrase p then { ectx with passphrase := some p } else ectx
  if E.takesCipher "AES-256-CBC" then { ectx with cipher := some "AES-256-CBC" } else ectx

/-- The structure that is asked for. -/
def outputStructure (wantPrivate : Bool) (format : KeyFormat) : EncoderStructure :=
  if wantPrivate then
    match format with
    | .pkcs8 => .privateKeyInfo
    | .spki => .subjectPublicKeyInfo
    | .traditional => .typeSpecific
  -- the format does not matter for a public key
  else .subjectPublicKeyInfo

/-- Encode to a memory BIO, and hand out its contents. -/
def encodeToMemory (r : ρ) (ectx : EncoderCtx κ) : Except PkeyError (List Byte) :=
  if E.bioNew = false then .error (.internal 0)
  else
    match encoderToBio E r ectx with
    | some bytes => .ok bytes
    | none => .error (.internal E.peekLastError)

def encodeKey (r : ρ) (p : κ) (opts : SaveOptions) (wantPrivate : Bool) :
    Except PkeyError (List Byte) :=
  let selection := if wantPrivate then Selection.keypair else .publicKey
  let st := outputStructure wantPrivate opts.format
  if E.newForPkey p selection opts.encoding st = false then .error (.internal 0)
  else
    let ectx : EncoderCtx κ := ⟨p, selection, opts.encoding, st, none, none⟩
    match opts.passphrase with
    | some pass =>
      -- of the formats, only PKCS#8 is encrypted
      if wantPrivate ∧ opts.format = .pkcs8 then encodeToMemory E r (setPassphrase E ectx pass)
      else encodeToMemory E r ectx
    | none => encodeToMemory E r ectx

def savePrivate (r : ρ) (p : κ) (opts : SaveOptions) : Except PkeyError (List Byte) :=
  encodeKey E r p opts true

def savePublic (r : ρ) (p : κ) (opts : SaveOptions) : Except PkeyError (List Byte) :=
  encodeKey E r p opts false

/-! ## Passphrases -/

/-- The bytes are the private key, encrypted under the passphrase. -/
def EncoderLib.EncryptedUnder (k : κ) (enc : Encoding) (pass bytes : List Byte) : Prop :=
  ∃ st cipher r, E.encrypted k .keypair st enc cipher pass r = some bytes

/-- With the passphrase, what is saved is encrypted under it, and differs from what is saved
without one. -/
def KeepsSecret (k : κ) (format : KeyFormat) (enc : Encoding) (pass : List Byte) : Prop :=
  ∀ r bytes, savePrivate E r k ⟨format, enc, some pass⟩ = .ok bytes →
    E.EncryptedUnder k enc pass bytes ∧
      ∀ r', savePrivate E r' k ⟨format, enc, none⟩ ≠ .ok bytes

end

variable {κ ρ : Type} {E : EncoderLib κ ρ}

theorem encodeToMemory_eq_ok {r : ρ} {ectx : EncoderCtx κ} {bytes : List Byte}
    (h : encodeToMemory E r ectx = .ok bytes) : encoderToBio E r ectx = some bytes := by
  rw [encodeToMemory] at h
  split at h
  · cases h
  · cases ho : encoderToBio E r ectx with
    | none =>
      rw [ho] at h
      cases h
    | some out =>
      rw [ho] at h
      rw [Except.ok.inj h]

/-- Without a passphrase, the key is encoded in the clear. -/
theorem savePrivate_none {r : ρ} {k : κ} {format : KeyFormat} {enc : Encoding}
    {bytes : List Byte} (h : savePrivate E r k ⟨format, enc, none⟩ = .ok bytes) :
    E.clear k .keypair (outputStructure true format) enc = some bytes := by
  simp only [savePrivate, encodeKey, if_true] at h
  split at h
  · cases h
  · exact encodeToMemory_eq_ok h

/-- With a passphrase and `pkcs8`, it is encrypted. -/
theorem savePrivate_pkcs8 (hE : E.Documented) {r : ρ} {k : κ} {enc : Encoding}
    {pass bytes : List Byte} (h : savePrivate E r k ⟨.pkcs8, enc, some pass⟩ = .ok bytes) :
    E.encrypted k .keypair .privateKeyInfo enc "AES-256-CBC" pass r = some bytes := by
  simp only [savePrivate, encodeKey, if_true] at h
  split at h
  · cases h
  · -- both setters succeed, although nobody asks
    have hbio := encodeToMemory_eq_ok h
    rw [setPassphrase, hE.takesPassphrase, hE.takesCipher_aes] at hbio
    simpa [encoderToBio, outputStructure, hE.supports_privateKeyInfo] using hbio

/-- For `pkcs8`, a key that is saved with a passphrase is encrypted under it, and not what is saved
without one. The other formats do not look at the passphrase. -/
theorem savePrivate_passphrase (hE : E.Documented) (k : κ) (format : KeyFormat) (enc : Encoding)
    (pass : List Byte) :
    (format = .pkcs8 → KeepsSecret E k format enc pass) ∧
      (format ≠ .pkcs8 → ∀ r, savePrivate E r k ⟨format, enc, some pass⟩ =
        savePrivate E r k ⟨format, enc, none⟩) := by
  constructor
  · -- the encrypted key is compared with any encoding in the clear
    rintro rfl r bytes h
    have hencrypted := savePrivate_pkcs8 hE h
    refine ⟨⟨_, _, r, hencrypted⟩, fun r' h' => ?_⟩
    exact hE.encrypted_ne_clear hencrypted (savePrivate_none h')
  · intro hformat r
    simp [savePrivate, encodeKey, hformat]

/-- Encoders that write one byte for the key, and the passphrase after another one to encrypt it.
A key by itself is not encoded as a public one. -/
def referenceEncoder : EncoderLib Unit Unit where
  newForPkey _ _ _ _ := true
  takesCipher _ := true
  takesPassphrase _ := true
  bioNew := true
  supportsEncryption st := st = .privateKeyInfo
  clear _ sel st _ := if sel = .keypair ∧ st = .subjectPublicKeyInfo then none else some [0]
  encrypted _ _ _ _ _ pass _ := some (1 :: pass)
  peekLastError := 1

theorem referenceEncoder_documented : referenceEncoder.Documented where
  supports_privateKeyInfo := rfl
  takesCipher_aes := rfl
  takesPassphrase _ := rfl
  encrypted_ne_clear {k sel st enc cipher p r bytes} h hclear := by
    obtain rfl := Option.some.inj h
    dsimp only [referenceEncoder] at hclear
    split_ifs at hclear
    exact absurd (Option.some.inj hclear) (by simp)

/-- A key is kept secret. -/
theorem keepsSecret_reference : KeepsSecret referenceEncoder () .pkcs8 .der [112] :=
  (savePrivate_passphrase referenceEncoder_documented () .pkcs8 .der [112]).1 rfl

/-- In the traditional format, the key is saved in the clear, passphrase or not. -/
theorem not_keepsSecret_traditional : ¬KeepsSecret referenceEncoder () .traditional .pem [112] :=
  fun h => (h () [0] rfl).2 () rfl

end OpenSSLWasm.Pkey
