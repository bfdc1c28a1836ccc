import OpenSSLWasm.Support

/-!
# Objects that a store or a decoder hands on

The loader of `src/store_wit.c` and the decoder of `src/decoder_wit.c` get objects from the provider
that is composed in, and give each to a callback of OpenSSL as an array of parameters. Names and
data types go through a buffer of 64 bytes on the stack.

## Main definitions

* `StoreObject`, `DecodedObject`: what the provider yields;
* `storeParams`, `decodedParams`: the parameters that are built for an object;
* `storeRun`, `witDecoderDecode`: the objects are given to the callback;
* `exactParams`: the parameters with what the provider gave.

## Main results

* `storeRun_eq_offer`, `witDecoderDecode_eq_offer`: the callback is called once for each object, in
  order, until it refuses one;
* `deliversExactly_iff`: it is given what the provider gave exactly if names and data types fit into
  the buffer and have no NUL.
-/

namespace OpenSSLWasm.Provider

/-! ## Parameters of an object -/

/-- A parameter as a callback reads it. -/
inductive ObjectParam
  | int (key : List Byte) (value : ℕ)
  | utf8String (key value : List Byte)
  | octetString (key value : List Byte)
  deriving DecidableEq, Repr

/-- `OSSL_OBJECT_NAME` and so on. -/
inductive ObjectType
  | name
  | pkey
  | cert
  | crl
  deriving DecidableEq, Repr

def ObjectType.toNat : ObjectType → ℕ
  | name => 1
  | pkey => 2
  | cert => 3
  | crl => 4

namespace ObjectParam

/-- `OSSL_OBJECT_PARAM_TYPE`. -/
def type (t : ObjectType) : ObjectParam := int (ascii "type") t.toNat

/-- `OSSL_OBJECT_PARAM_DATA_TYPE`. -/
def dataType : List Byte → ObjectParam := utf8String (ascii "data-type")

/-- `OSSL_OBJECT_PARAM_DATA`, in bytes. -/
def data : List Byte → ObjectParam := octetString (ascii "data")

/-- `OSSL_OBJECT_PARAM_DATA`, as a string. -/
def dataString : List Byte → ObjectParam := utf8String (ascii "data")

/-- `OSSL_OBJECT_PARAM_REFERENCE`. -/
def reference : List Byte → ObjectParam := octetString (ascii "reference")

end ObjectParam

/-- The size of `data_type_buf`. -/
def dataTypeBufSize : ℕ := 64

/-- `copy_to_cstr`: what fits into a buffer, with a NUL behind it. -/
def copyToCstr (size : ℕ) (s : List Byte) : List Byte := s.take (min s.length (size - 1)) ++ [0]

/-- A string that goes through the buffer: the parameter is made without a size, so it ends at the
first NUL. -/
def throughBuffer (s : List Byte) : List Byte := cString (copyToCstr dataTypeBufSize s)

theorem throughBuffer_eq_self_iff {s : List Byte} :
    throughBuffer s = s ↔ s.length < dataTypeBufSize ∧ 0 ∉ s := by
  rw [throughBuffer, copyToCstr, cString_append_nul]
  constructor
  · intro h
    -- nothing was cut off by the buffer, and then nothing by a NUL
    have hlen := length_cString_le (s.take (min s.length (dataTypeBufSize - 1)))
    rw [h, List.length_take] at hlen
    have hlt : s.length < dataTypeBufSize := by
      simp only [dataTypeBufSize] at hlen ⊢
      omega
    refine ⟨hlt, ?_⟩
    rw [List.take_of_length_le (by omega)] at h
    exact cString_eq_self_iff.mp h
  · rintro ⟨hlt, h0⟩
    rw [List.take_of_length_le (by omega)]
    exact cString_of_not_mem h0

/-! ## A callback -/

section

variable {β π : Type*}

/-- Parameters are offered to a callback until it refuses some: those that were offered, and whether
all were taken. The callback has a state. -/
def offer (cb : β → π → Bool × β) (b : β) : List π → (List π × Bool) × β
  | [] => (([], true), b)
  | p :: ps =>
    match cb b p with
    | (true, b) =>
      let ((offered, rc), b) := offer cb b ps
      ((p :: offered, rc), b)
    | (false, b) => (([p], false), b)

theorem offer_accepting (ps : List π) :
    offer (fun (_ : Unit) _ => (true, ())) () ps = ((ps, true), ()) := by
  induction ps with
  | nil => rfl
  | cons p ps ih => simp [offer, ih]

/-- What is offered to every callback in the same way is the same. -/
theorem offer_eq_iff {ps qs : List π} :
    (∀ (β : Type) (cb : β → π → Bool × β) (b : β),
      (offer cb b ps).1.1 = (offer cb b qs).1.1) ↔ ps = qs := by
  constructor
  · -- a callback that takes everything sees everything
    intro h
    have hunit := h Unit (fun _ _ => (true, ())) ()
    rwa [offer_accepting, offer_accepting] at hunit
  · rintro rfl _ _ _
    rfl

end

/-! ## The store -/

/-- `store-object`. -/
inductive StoreObject
  | cert (der : List Byte)
  | crl (der : List Byte)
  | keyReference (dataType reference : List Byte)
  | name (name : List Byte)
  deriving DecidableEq, Repr

/-- The answers of the loader that is composed in. -/
inductive LoaderAnswer
  | error
  | none
  | object (o : StoreObject)
  deriving DecidableEq, Repr

/-- The parameters that `wit_store_load` builds. -/
def storeParams : StoreObject → List ObjectParam
  | .cert der => [.type .cert, .dataType (ascii "CERTIFICATE"), .data der]
  | .crl der => [.type .crl, .dataType (ascii "X509 CRL"), .data der]
  | .keyReference dataType reference =>
    [.type .pkey, .dataType (throughBuffer dataType), .reference reference]
  | .name name => [.type .name, .dataString (throughBuffer name)]

section

variable {β : Type*} (cb : β → List ObjectParam → Bool × β)

/-- `wit_store_load`: the parameters that the callback is called with, if it is, and what is
returned. -/
def witStoreLoad (b : β) : LoaderAnswer → (List (List ObjectParam) × Bool) × β
  | .error => (([], false), b)
  -- the caller asks for the end
  | .none => (([], true), b)
  | .object o =>
    let params := storeParams o
    let (rc, b) := cb b params
    (([params], rc), b)

/-- OpenSSL loads until a load fails. -/
def storeRun (b : β) : List LoaderAnswer → (List (List ObjectParam) × Bool) × β
  | [] => (([], true), b)
  | a :: as =>
    match witStoreLoad cb b a with
    | ((calls, true), b) =>
      let ((calls', rc), b) := storeRun b as
      ((calls ++ calls', rc), b)
    -- the caller takes this for the end
    | ((calls, false), b) => ((calls, false), b)

end

/-- The objects that a loader yields before it fails. -/
def yielded : List LoaderAnswer → List StoreObject
  | [] => []
  | .error :: _ => []
  | .none :: as => yielded as
  | .object o :: as => o :: yielded as

/-- The callback is called once for each object, in order, until it refuses one. -/
theorem storeRun_eq_offer {β : Type*} (cb : β → List ObjectParam → Bool × β) (b : β)
    (answers : List LoaderAnswer) :
    (storeRun cb b answers).1.1 = (offer cb b ((yielded answers).map storeParams)).1.1 := by
  induction answers generalizing b with
  | nil => rfl
  | cons a as ih =>
    rcases a with _ | _ | o
    · rfl
    · exact ih b
    · rw [yielded, List.map_cons, offer, storeRun, witStoreLoad]
      -- after an object that was refused there is no further load
      rcases cb b (storeParams o) with ⟨_ | _, b'⟩
      · rfl
      · simp [ih b']

/-! ## The decoder -/

/-- `decoded-object`; the keys are resources of the provider. -/
inductive DecodedObject (κ : Type)
  | cert (der : List Byte)
  | crl (der : List Byte)
  | key (k : κ)
  | name (name : List Byte)

/-- The parameters that `wit_decoder_decode` builds; keys are skipped. -/
def decodedParams {κ : Type} : DecodedObject κ → Option (List ObjectParam)
  | .cert der => some [.type .cert, .dataType (ascii "CERTIFICATE"), .data der]
  | .crl der => some [.type .crl, .dataType (ascii "X509 CRL"), .data der]
  | .key _ => none
  | .name name => some [.type .name, .dataString (throughBuffer name)]

section

variable {κ : Type} {β : Type*} (cb : β → List ObjectParam → Bool × β)

/-- The loop of `wit_decoder_decode`. -/
def decodedLoop (b : β) : List (DecodedObject κ) → (List (List ObjectParam) × Bool) × β
  | [] => (([], true), b)
  | o :: os =>
    match decodedParams o with
    -- `continue`
    | none => decodedLoop b os
    | some params =>
      match cb b params with
      | (true, b) =>
        let ((calls, rc), b) := decodedLoop b os
        ((params :: calls, rc), b)
      | (false, b) => (([params], false), b)

/-- `wit_decoder_decode`, for what the provider makes of the input. -/
def witDecoderDecode (b : β) :
    Option (List (DecodedObject κ)) → (List (List ObjectParam) × Bool) × β
  | none => (([], false), b)
  | some out => decodedLoop cb b out

end

/-- The same object of a store, if there is one. -/
def DecodedObject.toStore? {κ : Type} : DecodedObject κ → Option StoreObject
  | cert der => some (.cert der)
  | crl der => some (.crl der)
  | key _ => none
  | name n => some (.name n)

/-- A decoder builds the parameters that a store builds. -/
theorem decodedParams_eq {κ : Type} (o : DecodedObject κ) :
    decodedParams o = o.toStore?.map storeParams := by
  rcases o with _ | _ | _ | _ <;> rfl

/-- The callback is called once for each object that is no key, in order, until it refuses one. -/
theorem witDecoderDecode_eq_offer {κ : Type} {β : Type*} (cb : β → List ObjectParam → Bool × β)
    (b : β) (out : List (DecodedObject κ)) :
    witDecoderDecode cb b (some out) =
      offer cb b ((out.filterMap DecodedObject.toStore?).map storeParams) := by
  -- the loop skips exactly what is no object of a store
  rw [witDecoderDecode, List.map_filterMap]
  simp only [← decodedParams_eq]
  induction out generalizing b with
  | nil => rfl
  | cons o os ih =>
    rw [decodedLoop, List.filterMap_cons]
    rcases decodedParams o with _ | params
    · exact ih b
    · simp only [offer, ih]

/-! ## What the provider gave -/

/-- The parameters of an object with what the provider gave. -/
def exactParams : StoreObject → List ObjectParam
  | .cert der => [.type .cert, .dataType (ascii "CERTIFICATE"), .data der]
  | .crl der => [.type .crl, .dataType (ascii "X509 CRL"), .data der]
  | .keyReference dataType reference => [.type .pkey, .dataType dataType, .reference reference]
  | .name name => [.type .name, .dataString name]

/-- The name or data type of the object, if it has one, goes through the buffer as it is. -/
def StoreObject.Short : StoreObject → Prop
  | cert _ => True
  | crl _ => True
  | keyReference dataType _ => dataType.length < dataTypeBufSize ∧ 0 ∉ dataType
  | name n => n.length < dataTypeBufSize ∧ 0 ∉ n

theorem storeParams_eq_exactParams_iff (o : StoreObject) :
    storeParams o = exactParams o ↔ o.Short := by
  rcases o with der | der | ⟨dataType, reference⟩ | name
  · exact iff_of_true rfl trivial
  · exact iff_of_true rfl trivial
  · rw [StoreObject.Short, ← throughBuffer_eq_self_iff]
    simp [storeParams, exactParams, ObjectParam.dataType]
  · rw [StoreObject.Short, ← throughBuffer_eq_self_iff]
    simp [storeParams, exactParams, ObjectParam.dataString]

/-- Whatever the callback, it is called with the parameters of the objects that the loader yields,
in order, until it refuses one. -/
def StoreDelivers (answers : List LoaderAnswer) : Prop :=
  ∀ (β : Type) (cb : β → List ObjectParam → Bool × β) (b : β),
    (storeRun cb b answers).1.1 = (offer cb b ((yielded answers).map exactParams)).1.1

/-- The same for the objects of a decoder that are no keys. -/
def DecoderDelivers {κ : Type} (out : List (DecodedObject κ)) : Prop :=
  ∀ (β : Type) (cb : β → List ObjectParam → Bool × β) (b : β),
    (witDecoderDecode cb b (some out)).1.1 =
      (offer cb b ((out.filterMap DecodedObject.toStore?).map exactParams)).1.1

/-- The parameters are those of all objects exactly if they are those of each. -/
theorem map_storeParams_eq_iff (os : List StoreObject) :
    os.map storeParams = os.map exactParams ↔ ∀ o ∈ os, o.Short := by
  rw [List.map_inj_left]
  simp only [storeParams_eq_exactParams_iff]

/-- A store and a decoder deliver what the provider gave exactly if all names and data types have
at most 63 bytes and no NUL. -/
theorem deliversExactly_iff {κ : Type} (answers : List LoaderAnswer)
    (out : List (DecodedObject κ)) :
    (StoreDelivers answers ↔ ∀ o ∈ yielded answers, o.Short) ∧
      (DecoderDelivers out ↔ ∀ o ∈ out.filterMap DecodedObject.toStore?, o.Short) := by
  constructor
  · rw [← map_storeParams_eq_iff, ← offer_eq_iff]
    simp only [StoreDelivers, storeRun_eq_offer]
  · rw [← map_storeParams_eq_iff, ← offer_eq_iff]
    simp only [DecoderDelivers, witDecoderDecode_eq_offer]

/-- A name of 64 bytes is cut to 63, by the store and by the decoder, and so is a data type; a name
with a NUL ends there. -/
theorem not_deliversExactly :
    ¬StoreDelivers [.object (.name (List.replicate 64 0x61))] ∧
      ¬StoreDelivers [.object (.keyReference (List.replicate 64 0x61) [])] ∧
      ¬StoreDelivers [.object (.name [0x61, 0, 0x62])] ∧
      ¬DecoderDelivers [(.name (List.replicate 64 0x61) : DecodedObject Unit)] := by
  refine ⟨fun h => ?_, fun h => ?_, fun h => ?_, fun h => ?_⟩
  -- a callback that takes everything tells the difference
  all_goals
    have hcalls := h Unit (fun _ _ => (true, ())) ()
    revert hcalls
    decide

end OpenSSLWasm.Provider
