import OpenSSLWasm.Provider.SignatureParams

/-!
# Selections of key material

OpenSSL passes a selection, an `int` of `OSSL_KEYMGMT_SELECT` bits, to key managers, encoders and
decoders. The provider that is composed in has four flags for it. `src/provider_wit.c` and one
function of `src/encoder_wit.c` map the bits one by one; the other functions of `src/encoder_wit.c`
and `src/decoder_wit.c` pass on the low byte.

## Main definitions

* `selectionToWit`: the map;
* `EntryCall` and `EntryCall.backendCall`: the entry points that take a selection, and what they
  give to the provider;
* `Translates`: flags stand for a selection.

## Main results

* `translates_selectionToWit`: the map is right for every `int`;
* `translates_lowByte_iff`: the low byte is right exactly if no bit from 0x08 to 0x80 is set;
* `givesSelection_iff`: which calls give the provider the flags of their selection.
-/

namespace OpenSSLWasm.Provider

/-! ## The bridge -/

/-- The `OSSL_KEYMGMT_SELECT` bits that have a flag. -/
def selectPrivateKey : BitVec 32 := 0x01

def selectPublicKey : BitVec 32 := 0x02

def selectDomainParameters : BitVec 32 := 0x04

def selectOtherParameters : BitVec 32 := 0x80

/-- `selection_to_wit`. -/
def selectionToWit (sel : BitVec 32) : BitVec 8 :=
  let out : BitVec 8 := 0
  let out := if sel &&& selectPrivateKey ≠ 0 then out ||| 0x01 else out
  let out := if sel &&& selectPublicKey ≠ 0 then out ||| 0x02 else out
  let out := if sel &&& selectDomainParameters ≠ 0 then out ||| 0x04 else out
  if sel &&& selectOtherParameters ≠ 0 then out ||| 0x08 else out

/-- `(uint8_t)(selection & 0xff)`. -/
def lowByte (selection : BitVec 32) : BitVec 8 := (selection &&& 0xff).setWidth 8

/-- `build_wit_params_full`: strings and octet strings, in order. -/
def buildWitParamsFull (params : Option (List OsslParam)) : List SignParam :=
  (params.getD []).filterMap fun p =>
    match p.dataType with
    | .utf8String => some ⟨p.key, .utf8String p.data.bytes⟩
    | .octetString => some ⟨p.key, .octetString p.data.bytes⟩
    | _ => none

/-- What the provider is asked for, with the flags of a selection. `κ` are its handles. -/
inductive BackendCall (κ : Type)
  | has (key : κ) (flags : BitVec 8)
  | keysMatch (a b : κ) (flags : BitVec 8)
  | exports (key : κ) (flags : BitVec 8)
  | imports (key : κ) (flags : BitVec 8) (params : List SignParam)
  | encoderDoesSelection (flags : BitVec 8)
  | encode (ctx key : κ) (flags : BitVec 8)
  | importObject (ctx : κ) (flags : BitVec 8) (params : List SignParam)
  | decoderDoesSelection (flags : BitVec 8)
  | decode (ctx : κ) (input : List Byte) (flags : BitVec 8)
  deriving DecidableEq, Repr

def BackendCall.flags {κ : Type} : BackendCall κ → BitVec 8
  | has _ f | keysMatch _ _ f | exports _ f | imports _ f _ | encoderDoesSelection f | encode _ _ f |
    importObject _ f _ | decoderDoesSelection f | decode _ _ f => f

section

variable {κ : Type}

/-! The entry points. A wrapper or a context is `none` if it is NULL or lacks its marker. -/

def witKeymgmtHas (keydata : Option κ) (selection : BitVec 32) : Option (BackendCall κ) :=
  keydata.map fun w => .has w (selectionToWit selection)

def witKeymgmtMatch (a b : Option κ) (selection : BitVec 32) : Option (BackendCall κ) := do
  let wa ← a
  let wb ← b
  some (.keysMatch wa wb (selectionToWit selection))

def witKeymgmtExport (keydata : Option κ) (selection : BitVec 32) (paramCb : Bool) :
    Option (BackendCall κ) :=
  if paramCb then keydata.map fun w => .exports w (selectionToWit selection) else none

def witKeymgmtImport (keydata : Option κ) (selection : BitVec 32)
    (params : Option (List OsslParam)) : Option (BackendCall κ) :=
  keydata.map fun w => .imports w (selectionToWit selection) (buildWitParamsFull params)

def witEncoderDoesSelection (selection : BitVec 32) : Option (BackendCall κ) :=
  some (.encoderDoesSelection (lowByte selection))

/-- The bits are mapped here as in `selection_to_wit`. -/
def witEncoderEncode (ctx : Option κ) (out : Bool) (obj : Option κ) (selection : BitVec 32) :
    Option (BackendCall κ) := do
  let c ← ctx
  if out then
    let w ← obj
    some (.encode c w (selectionToWit selection))
  else none

def witEncoderImportObject (ctx : Option κ) (selection : BitVec 32)
    (params : Option (List OsslParam)) : Option (BackendCall κ) :=
  ctx.map fun c => .importObject c (lowByte selection) (buildWitParamsFull params)

def witDecoderDoesSelection (selection : BitVec 32) : Option (BackendCall κ) :=
  some (.decoderDoesSelection (lowByte selection))

/-- The call that `wit_decoder_decode` makes; `input` is what `bio_drain` gives, if it gives anything. -/
def witDecoderDecodeCall (ctx : Option κ) (input : Option (List Byte)) (selection : BitVec 32)
    (dataCb : Bool) : Option (BackendCall κ) := do
  let c ← ctx
  if dataCb then
    let bytes ← input
    some (.decode c bytes (lowByte selection))
  else none

end

/-- A call of OpenSSL with a selection. -/
inductive EntryCall (κ : Type)
  | keymgmtHas (keydata : Option κ) (selection : BitVec 32)
  | keymgmtMatch (a b : Option κ) (selection : BitVec 32)
  | keymgmtExport (keydata : Option κ) (selection : BitVec 32) (paramCb : Bool)
  | keymgmtImport (keydata : Option κ) (selection : BitVec 32) (params : Option (List OsslParam))
  | encoderDoesSelection (selection : BitVec 32)
  | encoderEncode (ctx : Option κ) (out : Bool) (obj : Option κ) (selection : BitVec 32)
  | encoderImportObject (ctx : Option κ) (selection : BitVec 32) (params : Option (List OsslParam))
  | decoderDoesSelection (selection : BitVec 32)
  | decoderDecode (ctx : Option κ) (input : Option (List Byte)) (selection : BitVec 32)
      (dataCb : Bool)

namespace EntryCall

variable {κ : Type}

def selection : EntryCall κ → BitVec 32
  | keymgmtHas _ s | keymgmtMatch _ _ s | keymgmtExport _ s _ | keymgmtImport _ s _ |
    encoderDoesSelection s | encoderEncode _ _ _ s | encoderImportObject _ s _ |
    decoderDoesSelection s | decoderDecode _ _ s _ => s

/-- What the provider is asked for in a call, if it is. -/
def backendCall : EntryCall κ → Option (BackendCall κ)
  | keymgmtHas keydata s => witKeymgmtHas keydata s
  | keymgmtMatch a b s => witKeymgmtMatch a b s
  | keymgmtExport keydata s paramCb => witKeymgmtExport keydata s paramCb
  | keymgmtImport keydata s params => witKeymgmtImport keydata s params
  | encoderDoesSelection s => witEncoderDoesSelection s
  | encoderEncode ctx out obj s => witEncoderEncode ctx out obj s
  | encoderImportObject ctx s params => witEncoderImportObject ctx s params
  | decoderDoesSelection s => witDecoderDoesSelection s
  | decoderDecode ctx input s dataCb => witDecoderDecodeCall ctx input s dataCb

end EntryCall

/-! ## Flags and selections -/

/-- The flags say which key material is selected, and nothing else. -/
structure Translates (sel : BitVec 32) (flags : BitVec 8) : Prop where
  privateKey : flags.getLsbD 0 = (sel &&& selectPrivateKey != 0)
  publicKey : flags.getLsbD 1 = (sel &&& selectPublicKey != 0)
  domainParameters : flags.getLsbD 2 = (sel &&& selectDomainParameters != 0)
  otherParameters : flags.getLsbD 3 = (sel &&& selectOtherParameters != 0)
  undefined : ∀ i, 4 ≤ i → flags.getLsbD i = false

/-- The provider is given the flags of the selection, if it is asked for anything. -/
def EntryCall.GivesSelection {κ : Type} (e : EntryCall κ) : Prop :=
  ∀ c ∈ e.backendCall, Translates e.selection c.flags

/-- The bits of an `int` that the low byte has no right flag for. -/
def foreignBits : BitVec 32 := 0xf8

/-- The entry points that pass on the low byte, where they get as far as that. -/
def EntryCall.Masks {κ : Type} : EntryCall κ → Prop
  | encoderDoesSelection _ => True
  | encoderImportObject ctx _ _ => ctx.isSome
  | decoderDoesSelection _ => True
  | decoderDecode ctx input _ dataCb => ctx.isSome ∧ input.isSome ∧ dataCb
  | _ => False

/-! ## The two ways -/

/-- A selection has only one translation. -/
theorem Translates.unique {sel : BitVec 32} {f g : BitVec 8} (hf : Translates sel f)
    (hg : Translates sel g) : f = g := by
  ext i hi
  by_cases h : 4 ≤ i
  · have hfi := hf.undefined i h
    have hgi := hg.undefined i h
    rw [BitVec.getLsbD_eq_getElem hi] at hfi hgi
    rw [hfi, hgi]
  · have hi4 : i = 0 ∨ i = 1 ∨ i = 2 ∨ i = 3 := by omega
    rcases hi4 with rfl | rfl | rfl | rfl
    · exact hf.privateKey.trans hg.privateKey.symm
    · exact hf.publicKey.trans hg.publicKey.symm
    · exact hf.domainParameters.trans hg.domainParameters.symm
    · exact hf.otherParameters.trans hg.otherParameters.symm

theorem translates_selectionToWit (sel : BitVec 32) : Translates sel (selectionToWit sel) := by
  unfold selectionToWit
  constructor
  case undefined =>
    intro i hi
    by_cases h8 : i < 8
    · have hi : i = 4 ∨ i = 5 ∨ i = 6 ∨ i = 7 := by omega
      rcases hi with rfl | rfl | rfl | rfl <;> split_ifs <;> rfl
    · exact BitVec.getLsbD_of_ge _ _ (by omega)
  all_goals split_ifs <;> simp_all

/-- A bit of a selection. -/
theorem and_twoPow_bne_zero (sel : BitVec 32) {i : ℕ} (hi : i < 32) :
    (sel &&& BitVec.twoPow 32 i != 0) = sel.getLsbD i := by
  have hne : BitVec.twoPow 32 i ≠ 0#32 := by
    intro h
    have hbit := congrArg (BitVec.getLsbD · i) h
    simp [hi] at hbit
  rw [BitVec.and_twoPow]
  cases h : sel.getLsbD i <;> simp [hne]

theorem and_foreignBits_eq_zero_iff (sel : BitVec 32) :
    sel &&& foreignBits = 0 ↔ ∀ i, 3 ≤ i → i < 8 → sel.getLsbD i = false := by
  have hbits : ∀ i < 32, foreignBits.getLsbD i = decide (3 ≤ i ∧ i < 8) := by decide
  constructor
  · intro h i h3 h8
    have hbit := congrArg (BitVec.getLsbD · i) h
    simpa [hbits i (by omega), h3, h8] using hbit
  · intro h
    apply BitVec.eq_of_getLsbD_eq
    intro i hi
    rw [BitVec.getLsbD_and, hbits i hi]
    by_cases hforeign : 3 ≤ i ∧ i < 8
    · simp [h i hforeign.1 hforeign.2]
    · simp [hforeign]

theorem getLsbD_lowByte (sel : BitVec 32) {i : ℕ} (hi : i < 8) :
    (lowByte sel).getLsbD i = sel.getLsbD i := by
  have hmask : ∀ i < 8, (0xff : BitVec 32).getLsbD i = true := by decide
  rw [lowByte, BitVec.getLsbD_setWidth, BitVec.getLsbD_and, hmask i hi]
  simp [hi]

/-- The low byte is right exactly if no bit from 0x08 to 0x80 is set. -/
theorem translates_lowByte_iff (sel : BitVec 32) :
    Translates sel (lowByte sel) ↔ sel &&& foreignBits = 0 := by
  have hother : (sel &&& selectOtherParameters != 0) = sel.getLsbD 7 :=
    and_twoPow_bne_zero sel (i := 7) (by omega)
  rw [and_foreignBits_eq_zero_iff]
  constructor
  · intro h i h3 h8
    have hhigh : ∀ i, 4 ≤ i → i < 8 → sel.getLsbD i = false := by
      intro i h4 h8
      rw [← getLsbD_lowByte sel h8]
      exact h.undefined i h4
    rcases Nat.eq_or_lt_of_le h3 with rfl | h4
    · -- the flag of other parameters is where OpenSSL has no bit of them
      rw [← getLsbD_lowByte sel h8, h.otherParameters, hother]
      exact hhigh 7 (by omega) (by omega)
    · exact hhigh i h4 h8
  · intro h
    refine ⟨?_, ?_, ?_, ?_, fun i h4 => ?_⟩
    · rw [getLsbD_lowByte sel (by omega)]
      exact (and_twoPow_bne_zero sel (i := 0) (by omega)).symm
    · rw [getLsbD_lowByte sel (by omega)]
      exact (and_twoPow_bne_zero sel (i := 1) (by omega)).symm
    · rw [getLsbD_lowByte sel (by omega)]
      exact (and_twoPow_bne_zero sel (i := 2) (by omega)).symm
    · rw [getLsbD_lowByte sel (by omega), hother, h 3 le_rfl (by omega), h 7 (by omega) (by omega)]
    · by_cases h8 : i < 8
      · rw [getLsbD_lowByte sel h8]
        exact h i (by omega) h8
      · exact BitVec.getLsbD_of_ge _ _ (by omega)

/-! ## The entry points -/

section

variable {κ : Type}

/-- What an entry point gives to the provider: the low byte if it masks, else the right flags. -/
theorem flags_backendCall {e : EntryCall κ} {c : BackendCall κ} (h : c ∈ e.backendCall) :
    e.Masks ∧ c.flags = lowByte e.selection ∨
      ¬e.Masks ∧ c.flags = selectionToWit e.selection := by
  cases e with
  | keymgmtHas keydata s =>
    obtain ⟨w, -, rfl⟩ := Option.map_eq_some_iff.mp h
    exact Or.inr ⟨id, rfl⟩
  | keymgmtMatch a b s =>
    obtain ⟨wa, -, h⟩ := Option.bind_eq_some_iff.mp h
    obtain ⟨wb, -, h⟩ := Option.bind_eq_some_iff.mp h
    obtain rfl := Option.some.inj h
    exact Or.inr ⟨id, rfl⟩
  | keymgmtExport keydata s paramCb =>
    obtain ⟨-, h⟩ := Option.ite_none_right_eq_some.mp h
    obtain ⟨w, -, rfl⟩ := Option.map_eq_some_iff.mp h
    exact Or.inr ⟨id, rfl⟩
  | keymgmtImport keydata s params =>
    obtain ⟨w, -, rfl⟩ := Option.map_eq_some_iff.mp h
    exact Or.inr ⟨id, rfl⟩
  | encoderDoesSelection s =>
    obtain rfl := Option.some.inj h
    exact Or.inl ⟨trivial, rfl⟩
  | encoderEncode ctx out obj s =>
    obtain ⟨w, -, h⟩ := Option.bind_eq_some_iff.mp h
    obtain ⟨-, h⟩ := Option.ite_none_right_eq_some.mp h
    obtain ⟨k, -, h⟩ := Option.bind_eq_some_iff.mp h
    obtain rfl := Option.some.inj h
    exact Or.inr ⟨id, rfl⟩
  | encoderImportObject ctx s params =>
    obtain ⟨w, hw, rfl⟩ := Option.map_eq_some_iff.mp h
    exact Or.inl ⟨by rw [EntryCall.Masks, hw]; rfl, rfl⟩
  | decoderDoesSelection s =>
    obtain rfl := Option.some.inj h
    exact Or.inl ⟨trivial, rfl⟩
  | decoderDecode ctx input s dataCb =>
    obtain ⟨w, hw, h⟩ := Option.bind_eq_some_iff.mp h
    obtain ⟨hcb, h⟩ := Option.ite_none_right_eq_some.mp h
    obtain ⟨bytes, hbytes, h⟩ := Option.bind_eq_some_iff.mp h
    obtain rfl := Option.some.inj h
    exact Or.inl ⟨⟨by rw [hw]; rfl, by rw [hbytes]; rfl, hcb⟩, rfl⟩

/-- An entry point that masks does ask the provider. -/
theorem isSome_backendCall_of_masks {e : EntryCall κ} (h : e.Masks) : e.backendCall.isSome := by
  cases e with
  | encoderDoesSelection s => rfl
  | encoderImportObject ctx s params =>
    obtain ⟨c, rfl⟩ := Option.isSome_iff_exists.mp h
    rfl
  | decoderDoesSelection s => rfl
  | decoderDecode ctx input s dataCb =>
    obtain ⟨hctx, hinput, rfl⟩ := h
    obtain ⟨c, rfl⟩ := Option.isSome_iff_exists.mp hctx
    obtain ⟨bytes, rfl⟩ := Option.isSome_iff_exists.mp hinput
    rfl
  | _ => exact absurd h id

/-- Two calls with one selection that both give its flags give the same flags. -/
theorem flags_eq_of_givesSelection {e e' : EntryCall κ} (hsel : e.selection = e'.selection)
    (h : e.GivesSelection) (h' : e'.GivesSelection) {c c' : BackendCall κ}
    (hc : c ∈ e.backendCall) (hc' : c' ∈ e'.backendCall) : c.flags = c'.flags :=
  (h c hc).unique (hsel ▸ h' c' hc')

/-- A call gives the provider the flags of its selection exactly if its entry point maps the bits
one by one, or no bit from 0x08 to 0x80 is set. -/
theorem givesSelection_iff (e : EntryCall κ) :
    e.GivesSelection ↔ (e.Masks → e.selection &&& foreignBits = 0) := by
  constructor
  · intro h hmasks
    obtain ⟨c, hc⟩ := Option.isSome_iff_exists.mp (isSome_backendCall_of_masks hmasks)
    have hflags := h c hc
    rcases flags_backendCall hc with ⟨-, hlow⟩ | ⟨hno, -⟩
    · rw [hlow] at hflags
      exact (translates_lowByte_iff _).mp hflags
    · exact absurd hmasks hno
  · intro h c hc
    rcases flags_backendCall hc with ⟨hmasks, hlow⟩ | ⟨-, hmap⟩
    · rw [hlow]
      exact (translates_lowByte_iff _).mpr (h hmasks)
    · rw [hmap]
      exact translates_selectionToWit _

/-- A key pair with other parameters: a decoder gets a flag that does not exist, and not that of
other parameters. -/
theorem not_givesSelection_keypair : ¬∀ e : EntryCall ℕ, e.GivesSelection := by
  intro h
  have hflags := (h (.decoderDoesSelection 0x83) (.decoderDoesSelection 0x83) rfl).otherParameters
  exact absurd hflags (by decide)

end

end OpenSSLWasm.Provider
