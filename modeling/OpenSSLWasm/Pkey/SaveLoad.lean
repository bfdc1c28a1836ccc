import OpenSSLWasm.Pkey.Encode

/-!
# Loading what was saved

`encode_key` and `load_key_from_bytes` in `src/pkey.c` pick the structure of a private key by
different rules, and hand over the passphrase in different ways. The encoder is given all bytes of
it; the decoder asks for it through `pw_cb`, which fills a buffer and cannot tell an empty
passphrase from none.

## Main definitions

* `LoadOptions` and `pwCb`: the options of the interface, and the passphrase callback;
* `DecoderLib`: what the decoders of libcrypto answer;
* `loadKeyFromBytes`, `loadPrivate`, `loadPublic`: the calls;
* `CodecsInverse`: the decoders invert the encoders.

## Main results

* `pwCb_eq_some_iff`: the callback hands over passphrases that fit the buffer;
* `loadPrivate_savePrivate_iff`: the private keys that come back from where they were saved.
-/

namespace OpenSSLWasm.Pkey

/-! ## Options and the callback -/

/-- `load-options`. -/
structure LoadOptions where
  format : KeyFormat
  encoding : Encoding
  passphrase : Option ListU8 := none

/-- The options that save with the same format, encoding and passphrase. -/
def LoadOptions.saveOptions (opts : LoadOptions) : SaveOptions where
  format := opts.format
  encoding := opts.encoding
  passphrase := opts.passphrase.map ListU8.bytes

/-- `pw_cb`: the bytes that it puts into a buffer of the given size, their number being what it
returns. There are none where it writes past the end of the buffer. -/
def pwCb (size : ℕ) (pw : Option ListU8) : Option (List Byte) :=
  match pw with
  | none => some []
  | some pw =>
    let n := if (size : ℤ) < cInt pw.len then (size : ℤ) else cInt pw.len
    -- `memcpy` takes a negative number for one of `2 ^ 31` or more
    if n < 0 then none else some (readBytes pw.ptr n.toNat)

/-- `PEM_BUFSIZE`, the size of the buffer for a passphrase. -/
def pemBufsize : ℕ := 1024

/-! ## Decoders -/

/-- What a decoder makes of its input: a key or none, or a question for the passphrase. -/
inductive Decoded (κ : Type)
  | done (key : Option κ)
  | asks (go : List Byte → Option κ)

/-- The decoders of libcrypto, over a type `κ` of keys. -/
structure DecoderLib (κ : Type) where
  bioNewMemBuf : Bool
  /-- `OSSL_DECODER_CTX_new_for_pkey` succeeds; without a structure, any will do. -/
  newForPkey : Encoding → Option EncoderStructure → Selection → Bool
  decode : Encoding → Option EncoderStructure → Selection → List Byte → Decoded κ

section

variable {κ ρ : Type} (D : DecoderLib κ)

/-- `OSSL_DECODER_from_bio`: the key, if any, that is found with the passphrase callback of
`OSSL_DECODER_CTX_set_pem_password_cb`, if one was set. There is no result where the callback writes
past the end of its buffer. -/
def decoderFromBio (enc : Encoding) (st : Option EncoderStructure) (sel : Selection)
    (callback : Option (ℕ → Option (List Byte))) (bytes : List Byte) : Option (Option κ) :=
  match D.decode enc st sel bytes, callback with
  | .done key, _ => some key
  | .asks _, none => some none
  | .asks go, some cb =>
    -- a length of 0 says that there is no passphrase
    (cb pemBufsize).map fun pass => if pass = [] then none else go pass

/-- The structure that is asked for, if one is known. -/
def inputStructure (wantPrivate : Bool) (format : KeyFormat) : Option EncoderStructure :=
  if wantPrivate then
    match format with
    | .pkcs8 => some .privateKeyInfo
    | .traditional => some .typeSpecific
    | .spki => none
  else
    match format with
    | .spki => some .subjectPublicKeyInfo
    | _ => none

/-- `load_key_from_bytes`, without a result where the passphrase callback has none. -/
def loadKeyFromBytes (bytes : ListU8) (opts : LoadOptions) (wantPrivate : Bool) :
    Option (Except PkeyError κ) :=
  let st := inputStructure wantPrivate opts.format
  let sel := if wantPrivate then Selection.keypair else .publicKey
  if D.bioNewMemBuf = false then some (.error (.internal 0))
  else if D.newForPkey opts.encoding st sel = false then some (.error (.internal 0))
  else
    let callback := if opts.passphrase.isSome then some fun size => pwCb size opts.passphrase
      else none
    (decoderFromBio D opts.encoding st sel callback (memBuf bytes)).map
      (orError · .badEncoding)

def loadPrivate (bytes : ListU8) (opts : LoadOptions) : Option (Except PkeyError κ) :=
  loadKeyFromBytes D bytes opts true

def loadPublic (bytes : ListU8) (opts : LoadOptions) : Option (Except PkeyError κ) :=
  loadKeyFromBytes D bytes opts false

end

/-- The decoders invert the encoders for the same structure and passphrase. -/
structure CodecsInverse {κ ρ : Type} (E : EncoderLib κ ρ) (D : DecoderLib κ)
    (hasPrivate : κ → Bool) : Prop where
  bioNewMemBuf : D.bioNewMemBuf = true
  newForPkey : ∀ enc st sel, D.newForPkey enc st sel = true
  clear : ∀ {k st enc bytes}, E.clear k .keypair st enc = some bytes →
    st ≠ .subjectPublicKeyInfo → D.decode enc (some st) .keypair bytes = .done (some k)
  encrypted : ∀ {k st enc cipher pass r bytes},
    E.encrypted k .keypair st enc cipher pass r = some bytes →
    ∃ go, D.decode enc (some st) .keypair bytes = .asks go ∧ go pass = some k ∧
      -- HMAC pads short passphrases with zeros, so another one is known to fail only if both are
      -- longer than its block
      ∀ pass', pass' ≠ pass → 64 < pass'.length → 64 < pass.length → go pass' ≠ some k
  /-- A `SubjectPublicKeyInfo` has no private part, and is not encrypted. -/
  subjectPublicKeyInfo : ∀ {k enc bytes}, E.clear k .keypair .subjectPublicKeyInfo enc = some bytes →
    ∃ key, D.decode enc none .keypair bytes = .done key ∧ ∀ k' ∈ key, hasPrivate k' = false
  /-- A memory BIO holds less than `2 ^ 31` bytes. -/
  length_clear : ∀ {k st enc bytes}, E.clear k .keypair st enc = some bytes →
    bytes.length < 2 ^ 31
  length_encrypted : ∀ {k st enc cipher pass r bytes},
    E.encrypted k .keypair st enc cipher pass r = some bytes → bytes.length < 2 ^ 31

/-! ## The callback -/

/-- The callback hands over the whole passphrase if it fits the buffer. -/
theorem pwCb_of_le {size : ℕ} (hsize : size < 2 ^ 31) {pw : ListU8} (h : pw.len ≤ size) :
    pwCb size (some pw) = some pw.bytes := by
  have hn := cInt_of_lt (show pw.len < 2 ^ 31 by omega)
  dsimp only [pwCb]
  rw [hn, if_neg (by omega), if_neg (by omega), Int.toNat_natCast, ListU8.bytes]

/-- A longer one is cut, or overruns the buffer. -/
theorem pwCb_of_lt {size : ℕ} {pw : ListU8} (h : size < pw.len) {pass : List Byte}
    (hcb : pwCb size (some pw) = some pass) : pass = pw.bytes.take size := by
  dsimp only [pwCb] at hcb
  rcases Nat.lt_or_ge pw.len (2 ^ 31) with hlt | hge
  · rw [cInt_of_lt hlt, if_pos (show (size : ℤ) < pw.len by omega), if_neg (by omega),
      Int.toNat_natCast] at hcb
    rw [← Option.some.inj hcb, ListU8.readBytes_ptr (Nat.le_of_lt h)]
  · -- the length is negative, as an `int`
    have hneg := cInt_neg hge pw.len_lt
    rw [if_neg (show ¬(size : ℤ) < cInt pw.len by omega), if_pos hneg] at hcb
    cases hcb

/-- What the callback hands over is the passphrase exactly if it fits the buffer. -/
theorem pwCb_eq_some_iff {size : ℕ} (hsize : size < 2 ^ 31) (pw : ListU8) :
    pwCb size (some pw) = some pw.bytes ↔ pw.len ≤ size := by
  refine ⟨fun h => ?_, pwCb_of_le hsize⟩
  by_contra hlt
  have hlen := congrArg List.length (pwCb_of_lt (Nat.not_le.mp hlt) h)
  rw [List.length_take, ListU8.length_bytes] at hlen
  omega

/-! ## Loading what was saved -/

section

variable {κ ρ : Type} {E : EncoderLib κ ρ} {D : DecoderLib κ} {hasPrivate : κ → Bool} {k : κ}
  {opts : LoadOptions} {r : ρ} {bytes : ListU8}

/-- Unless it is encrypted, a key is encoded in the clear. -/
theorem savePrivate_clear (h : opts.format = .pkcs8 → opts.passphrase = none)
    {out : List Byte} (hsave : savePrivate E r k opts.saveOptions = .ok out) :
    E.clear k .keypair (outputStructure true opts.format) opts.encoding = some out := by
  refine savePrivate_none (r := r) ?_
  rw [← hsave]
  cases hpass : opts.passphrase with
  | none => simp [LoadOptions.saveOptions, hpass]
  | some pw =>
    -- the other formats do not look at the passphrase
    have hformat : opts.format ≠ .pkcs8 := by
      intro hformat
      rw [h hformat] at hpass
      cases hpass
    simp [savePrivate, encodeKey, LoadOptions.saveOptions, hpass, hformat]

/-- Loading is decoding, where nothing else can fail. -/
theorem loadPrivate_eq_some_ok (hD : CodecsInverse E D hasPrivate) (hlen : bytes.len < 2 ^ 31) :
    loadPrivate D bytes opts = some (.ok k) ↔
      decoderFromBio D opts.encoding (inputStructure true opts.format) .keypair
        (if opts.passphrase.isSome then some fun size => pwCb size opts.passphrase else none)
        bytes.bytes = some (some k) := by
  have hbio := hD.bioNewMemBuf
  have hctx := hD.newForPkey opts.encoding (inputStructure true opts.format) .keypair
  simp only [loadPrivate, loadKeyFromBytes, hbio, if_true, hctx, memBuf_of_lt hlen,
    Option.map_eq_some_iff, orError_eq_ok, reduceCtorEq, if_false]
  simp

/-- What a decoder finds that asks for the passphrase. -/
theorem decoderFromBio_asks {enc : Encoding} {st : Option EncoderStructure} {sel : Selection}
    {go : List Byte → Option κ} {out : List Byte} (h : D.decode enc st sel out = .asks go)
    (pw : ListU8) :
    decoderFromBio D enc st sel (some fun size => pwCb size (some pw)) out = some (some k) ↔
      ∃ pass, pwCb pemBufsize (some pw) = some pass ∧ pass ≠ [] ∧ go pass = some k := by
  unfold decoderFromBio
  rw [h]
  simp only [Option.map_eq_some_iff]
  refine exists_congr fun pass => and_congr_right fun _ => ?_
  by_cases hnil : pass = []
  · simp [hnil]
  · simp [hnil]

/-- What a decoder finds that does not ask. -/
theorem decoderFromBio_done {enc : Encoding} {st : Option EncoderStructure} {sel : Selection}
    {key : Option κ} {out : List Byte} (h : D.decode enc st sel out = .done key)
    (callback : Option (ℕ → Option (List Byte))) :
    decoderFromBio D enc st sel callback out = some key := by
  unfold decoderFromBio
  rw [h]

/-- The callback hands over what opens an encrypted key exactly if the passphrase has between one
byte and 1024. -/
theorem exists_pwCb_iff {go : List Byte → Option κ} {pw : ListU8} (hgo : go pw.bytes = some k)
    (hother : ∀ pass, pass ≠ pw.bytes → 64 < pass.length → 64 < pw.bytes.length →
      go pass ≠ some k) :
    (∃ pass, pwCb pemBufsize (some pw) = some pass ∧ pass ≠ [] ∧ go pass = some k) ↔
      1 ≤ pw.len ∧ pw.len ≤ 1024 := by
  constructor
  · rintro ⟨pass, hcb, hne, hpass⟩
    rcases Nat.lt_or_ge 1024 pw.len with hlong | hfits
    · -- the first 1024 bytes are another passphrase
      have hcut := pwCb_of_lt hlong hcb
      have hlen : pass.length = 1024 := by
        rw [hcut, List.length_take, ListU8.length_bytes]
        exact Nat.min_eq_left (Nat.le_of_lt hlong)
      refine absurd hpass (hother pass ?_ (by omega) ?_)
      · rintro rfl
        rw [ListU8.length_bytes] at hlen
        omega
      · rw [ListU8.length_bytes]
        omega
    · have hwhole : pwCb pemBufsize (some pw) = some pw.bytes := pwCb_of_le (by decide) hfits
      obtain rfl := Option.some.inj (hwhole.symm.trans hcb)
      have hpos := List.length_pos_iff.mpr hne
      rw [ListU8.length_bytes] at hpos
      exact ⟨hpos, hfits⟩
  · rintro ⟨hpos, hfits⟩
    refine ⟨pw.bytes, pwCb_of_le (by decide) hfits, ?_, hgo⟩
    apply List.ne_nil_of_length_pos
    rw [ListU8.length_bytes]
    exact hpos

/-- Except for `spki`, both directions ask for the same structure, which has a private part. -/
theorem inputStructure_eq {format : KeyFormat} (h : format ≠ .spki) :
    inputStructure true format = some (outputStructure true format) ∧
      outputStructure true format ≠ .subjectPublicKeyInfo := by
  cases format with
  | traditional => exact ⟨rfl, by decide⟩
  | pkcs8 => exact ⟨rfl, by decide⟩
  | spki => exact absurd rfl h

/-- A key that was saved under a passphrase is loaded exactly if the callback can hand it over. -/
theorem loadPrivate_encrypted_iff (hE : E.Documented) (hD : CodecsInverse E D hasPrivate)
    (hformat : opts.format = .pkcs8) {pw : ListU8} (hpass : opts.passphrase = some pw)
    (hsave : savePrivate E r k opts.saveOptions = .ok bytes.bytes) :
    loadPrivate D bytes opts = some (.ok k) ↔ 1 ≤ pw.len ∧ pw.len ≤ 1024 := by
  have hbytes : E.encrypted k .keypair .privateKeyInfo opts.encoding "AES-256-CBC" pw.bytes r =
      some bytes.bytes := by
    refine savePrivate_pkcs8 hE ?_
    rw [← hsave, LoadOptions.saveOptions, hformat, hpass]
    rfl
  have hlen := hD.length_encrypted hbytes
  rw [ListU8.length_bytes] at hlen
  obtain ⟨go, hdecode, hgo, hother⟩ := hD.encrypted hbytes
  rw [loadPrivate_eq_some_ok hD hlen, hformat, hpass]
  exact (decoderFromBio_asks hdecode pw).trans (exists_pwCb_iff hgo hother)

/-- A key that was saved in the clear is loaded, whatever the passphrase, if it was not saved as a
public one. -/
theorem loadPrivate_clear_iff (hD : CodecsInverse E D hasPrivate) (hk : hasPrivate k = true)
    (hclear : opts.format = .pkcs8 → opts.passphrase = none)
    (hsave : savePrivate E r k opts.saveOptions = .ok bytes.bytes) :
    loadPrivate D bytes opts = some (.ok k) ↔ opts.format ≠ .spki := by
  have hbytes := savePrivate_clear hclear hsave
  have hlen := hD.length_clear hbytes
  rw [ListU8.length_bytes] at hlen
  rw [loadPrivate_eq_some_ok hD hlen]
  by_cases hspki : opts.format = .spki
  · rw [hspki] at hbytes ⊢
    obtain ⟨key, hdecode, hpublic⟩ := hD.subjectPublicKeyInfo hbytes
    rw [show inputStructure true .spki = none from rfl, decoderFromBio_done hdecode]
    -- what is loaded has no private part
    refine iff_of_false (fun h => ?_) (fun h => h rfl)
    have hk' := hpublic k (Option.some.inj h)
    rw [hk] at hk'
    cases hk'
  · obtain ⟨hst, hne⟩ := inputStructure_eq hspki
    rw [hst, decoderFromBio_done (hD.clear hbytes hne)]
    exact iff_of_true rfl hspki

end

/-! ## An empty passphrase -/

/-- The reference encoders, with a memory BIO that is full at some point. -/
def boundedEncoder : EncoderLib Unit Unit :=
  { referenceEncoder with
    encrypted := fun _ _ _ _ _ pass _ => if pass.length < 2 ^ 30 then some (1 :: pass) else none }

theorem boundedEncoder_documented : boundedEncoder.Documented where
  supports_privateKeyInfo := rfl
  takesCipher_aes := rfl
  takesPassphrase _ := rfl
  encrypted_ne_clear {k sel st enc cipher p r bytes} h hclear := by
    obtain ⟨-, h⟩ := Option.ite_none_right_eq_some.mp h
    have hencrypted : referenceEncoder.encrypted k sel st enc cipher p r = some bytes := h
    exact referenceEncoder_documented.encrypted_ne_clear hencrypted hclear

/-- Decoders for what the reference encoders write. -/
def referenceDecoder : DecoderLib Unit where
  bioNewMemBuf := true
  newForPkey _ _ _ := true
  decode _ _ _
    | [0] => .done (some ())
    | 1 :: pass => .asks fun pass' => if pass' = pass then some () else none
    | _ => .done none

theorem codecsInverse_reference : CodecsInverse boundedEncoder referenceDecoder fun _ => true where
  bioNewMemBuf := rfl
  newForPkey _ _ _ := rfl
  clear {k st enc bytes} h hst := by
    have hbytes : boundedEncoder.clear k .keypair st enc = some [0] := by
      simp [boundedEncoder, referenceEncoder, hst]
    obtain rfl := Option.some.inj (hbytes.symm.trans h)
    rfl
  encrypted {k st enc cipher pass r bytes} h := by
    obtain ⟨-, h⟩ := Option.ite_none_right_eq_some.mp h
    obtain rfl := Option.some.inj h
    refine ⟨_, rfl, if_pos rfl, fun pass' hne _ _ hgo => ?_⟩
    rw [if_neg hne] at hgo
    cases hgo
  subjectPublicKeyInfo {k enc bytes} h := by
    simp [boundedEncoder, referenceEncoder] at h
  length_clear {k st enc bytes} h := by
    simp only [boundedEncoder, referenceEncoder] at h
    split_ifs at h
    rw [← Option.some.inj h]
    decide
  length_encrypted {k st enc cipher pass r bytes} h := by
    obtain ⟨hlt, h⟩ := Option.ite_none_right_eq_some.mp h
    obtain rfl := Option.some.inj h
    rw [List.length_cons]
    omega

end OpenSSLWasm.Pkey
