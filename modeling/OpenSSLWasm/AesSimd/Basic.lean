import Mathlib.Data.Fin.VecNotation
import Mathlib.Data.Int.Notation

/-!
# SIMD AES

The block functions of `src/aes_simd.c` as they are compiled with `__wasm_simd128__`. A `v128_t`
is its sixteen byte lanes, and a block in memory is the vector it is loaded into.

## Main definitions

* `AESKey`: the key schedule as OpenSSL lays it out, 32-bit columns in little-endian memory;
* `aesEncryptSimd` and `aesDecryptSimd`: the SIMD block functions;
* `wrapAESEncrypt` and `wrapAESDecrypt`: the functions that the linker puts in the place of
  OpenSSL's, which fall back to the original for an unknown number of rounds.
-/

namespace OpenSSLWasm.AesSimd

/-! ## Vector instructions -/

/-- A `v128_t`, as sixteen byte lanes. -/
abbrev V128 := Fin 16 → BitVec 8

/-- `wasm_i8x16_shuffle`: lane `i` is lane `lanes i` of the two operands taken together. -/
def i8x16Shuffle (a b : V128) (lanes : Fin 16 → Fin 32) : V128 := fun i =>
  if h : (lanes i : ℕ) < 16 then a ⟨lanes i, h⟩ else b ⟨lanes i - 16, by omega⟩

/-- `wasm_v128_xor`. -/
def v128Xor (a b : V128) : V128 := fun i => a i ^^^ b i

/-- `wasm_v128_and`. -/
def v128And (a b : V128) : V128 := fun i => a i &&& b i

/-- `wasm_u8x16_splat`. -/
def u8x16Splat (b : BitVec 8) : V128 := fun _ => b

/-- `wasm_i8x16_shl`. -/
def i8x16Shl (a : V128) (n : ℕ) : V128 := fun i => a i <<< n

/-- `wasm_u8x16_gt`: all ones in the lanes where the comparison holds. -/
def u8x16Gt (a b : V128) : V128 := fun i => if b i < a i then 0xff else 0x00

/-! ## The layers of a round -/

set_option maxRecDepth 4096 in
/-- The S-box table. -/
def aesSbox : Vector (BitVec 8) 256 := #v[
    0x63, 0x7c, 0x77, 0x7b, 0xf2, 0x6b, 0x6f, 0xc5,
    0x30, 0x01, 0x67, 0x2b, 0xfe, 0xd7, 0xab, 0x76,
    0xca, 0x82, 0xc9, 0x7d, 0xfa, 0x59, 0x47, 0xf0,
    0xad, 0xd4, 0xa2, 0xaf, 0x9c, 0xa4, 0x72, 0xc0,
    0xb7, 0xfd, 0x93, 0x26, 0x36, 0x3f, 0xf7, 0xcc,
    0x34, 0xa5, 0xe5, 0xf1, 0x71, 0xd8, 0x31, 0x15,
    0x04, 0xc7, 0x23, 0xc3, 0x18, 0x96, 0x05, 0x9a,
    0x07, 0x12, 0x80, 0xe2, 0xeb, 0x27, 0xb2, 0x75,
    0x09, 0x83, 0x2c, 0x1a, 0x1b, 0x6e, 0x5a, 0xa0,
    0x52, 0x3b, 0xd6, 0xb3, 0x29, 0xe3, 0x2f, 0x84,
    0x53, 0xd1, 0x00, 0xed, 0x20, 0xfc, 0xb1, 0x5b,
    0x6a, 0xcb, 0xbe, 0x39, 0x4a, 0x4c, 0x58, 0xcf,
    0xd0, 0xef, 0xaa, 0xfb, 0x43, 0x4d, 0x33, 0x85,
    0x45, 0xf9, 0x02, 0x7f, 0x50, 0x3c, 0x9f, 0xa8,
    0x51, 0xa3, 0x40, 0x8f, 0x92, 0x9d, 0x38, 0xf5,
    0xbc, 0xb6, 0xda, 0x21, 0x10, 0xff, 0xf3, 0xd2,
    0xcd, 0x0c, 0x13, 0xec, 0x5f, 0x97, 0x44, 0x17,
    0xc4, 0xa7, 0x7e, 0x3d, 0x64, 0x5d, 0x19, 0x73,
    0x60, 0x81, 0x4f, 0xdc, 0x22, 0x2a, 0x90, 0x88,
    0x46, 0xee, 0xb8, 0x14, 0xde, 0x5e, 0x0b, 0xdb,
    0xe0, 0x32, 0x3a, 0x0a, 0x49, 0x06, 0x24, 0x5c,
    0xc2, 0xd3, 0xac, 0x62, 0x91, 0x95, 0xe4, 0x79,
    0xe7, 0xc8, 0x37, 0x6d, 0x8d, 0xd5, 0x4e, 0xa9,
    0x6c, 0x56, 0xf4, 0xea, 0x65, 0x7a, 0xae, 0x08,
    0xba, 0x78, 0x25, 0x2e, 0x1c, 0xa6, 0xb4, 0xc6,
    0xe8, 0xdd, 0x74, 0x1f, 0x4b, 0xbd, 0x8b, 0x8a,
    0x70, 0x3e, 0xb5, 0x66, 0x48, 0x03, 0xf6, 0x0e,
    0x61, 0x35, 0x57, 0xb9, 0x86, 0xc1, 0x1d, 0x9e,
    0xe1, 0xf8, 0x98, 0x11, 0x69, 0xd9, 0x8e, 0x94,
    0x9b, 0x1e, 0x87, 0xe9, 0xce, 0x55, 0x28, 0xdf,
    0x8c, 0xa1, 0x89, 0x0d, 0xbf, 0xe6, 0x42, 0x68,
    0x41, 0x99, 0x2d, 0x0f, 0xb0, 0x54, 0xbb, 0x16]

set_option maxRecDepth 4096 in
/-- The inverse S-box table. -/
def aesInvSbox : Vector (BitVec 8) 256 := #v[
    0x52, 0x09, 0x6a, 0xd5, 0x30, 0x36, 0xa5, 0x38,
    0xbf, 0x40, 0xa3, 0x9e, 0x81, 0xf3, 0xd7, 0xfb,
    0x7c, 0xe3, 0x39, 0x82, 0x9b, 0x2f, 0xff, 0x87,
    0x34, 0x8e, 0x43, 0x44, 0xc4, 0xde, 0xe9, 0xcb,
    0x54, 0x7b, 0x94, 0x32, 0xa6, 0xc2, 0x23, 0x3d,
    0xee, 0x4c, 0x95, 0x0b, 0x42, 0xfa, 0xc3, 0x4e,
    0x08, 0x2e, 0xa1, 0x66, 0x28, 0xd9, 0x24, 0xb2,
    0x76, 0x5b, 0xa2, 0x49, 0x6d, 0x8b, 0xd1, 0x25,
    0x72, 0xf8, 0xf6, 0x64, 0x86, 0x68, 0x98, 0x16,
    0xd4, 0xa4, 0x5c, 0xcc, 0x5d, 0x65, 0xb6, 0x92,
    0x6c, 0x70, 0x48, 0x50, 0xfd, 0xed, 0xb9, 0xda,
    0x5e, 0x15, 0x46, 0x57, 0xa7, 0x8d, 0x9d, 0x84,
    0x90, 0xd8, 0xab, 0x00, 0x8c, 0xbc, 0xd3, 0x0a,
    0xf7, 0xe4, 0x58, 0x05, 0xb8, 0xb3, 0x45, 0x06,
    0xd0, 0x2c, 0x1e, 0x8f, 0xca, 0x3f, 0x0f, 0x02,
    0xc1, 0xaf, 0xbd, 0x03, 0x01, 0x13, 0x8a, 0x6b,
    0x3a, 0x91, 0x11, 0x41, 0x4f, 0x67, 0xdc, 0xea,
    0x97, 0xf2, 0xcf, 0xce, 0xf0, 0xb4, 0xe6, 0x73,
    0x96, 0xac, 0x74, 0x22, 0xe7, 0xad, 0x35, 0x85,
    0xe2, 0xf9, 0x37, 0xe8, 0x1c, 0x75, 0xdf, 0x6e,
    0x47, 0xf1, 0x1a, 0x71, 0x1d, 0x29, 0xc5, 0x89,
    0x6f, 0xb7, 0x62, 0x0e, 0xaa, 0x18, 0xbe, 0x1b,
    0xfc, 0x56, 0x3e, 0x4b, 0xc6, 0xd2, 0x79, 0x20,
    0x9a, 0xdb, 0xc0, 0xfe, 0x78, 0xcd, 0x5a, 0xf4,
    0x1f, 0xdd, 0xa8, 0x33, 0x88, 0x07, 0xc7, 0x31,
    0xb1, 0x12, 0x10, 0x59, 0x27, 0x80, 0xec, 0x5f,
    0x60, 0x51, 0x7f, 0xa9, 0x19, 0xb5, 0x4a, 0x0d,
    0x2d, 0xe5, 0x7a, 0x9f, 0x93, 0xc9, 0x9c, 0xef,
    0xa0, 0xe0, 0x3b, 0x4d, 0xae, 0x2a, 0xf5, 0xb0,
    0xc8, 0xeb, 0xbb, 0x3c, 0x83, 0x53, 0x99, 0x61,
    0x17, 0x2b, 0x04, 0x7e, 0xba, 0x77, 0xd6, 0x26,
    0xe1, 0x69, 0x14, 0x63, 0x55, 0x21, 0x0c, 0x7d]

def aesSubBytes (state : V128) : V128 := fun i => aesSbox.get (state i).toFin

def aesInvSubBytes (state : V128) : V128 := fun i => aesInvSbox.get (state i).toFin

/-- ShiftRows: row `r` shifts left by `r`. -/
def aesShiftRows (state : V128) : V128 :=
  i8x16Shuffle state state ![
     0,  5, 10, 15,
     4,  9, 14,  3,
     8, 13,  2,  7,
    12,  1,  6, 11]

/-- InvShiftRows: row `r` shifts right by `r`. -/
def aesInvShiftRows (state : V128) : V128 :=
  i8x16Shuffle state state ![
     0, 13, 10,  7,
     4,  1, 14, 11,
     8,  5,  2, 15,
    12,  9,  6,  3]

/-- Multiplication by two in GF(2⁸), bytewise. -/
def aesXtime (x : V128) : V128 :=
  let shl := i8x16Shl x 1
  let high := u8x16Gt x (u8x16Splat 0x7f)
  let reduce := v128And high (u8x16Splat 0x1b)
  v128Xor shl reduce

/-- Rotate each four-byte column left by one. -/
def rotCol1 (s : V128) : V128 :=
  i8x16Shuffle s s ![1, 2, 3, 0,  5, 6, 7, 4,  9, 10, 11, 8,  13, 14, 15, 12]

/-- Rotate each four-byte column left by two. -/
def rotCol2 (s : V128) : V128 :=
  i8x16Shuffle s s ![2, 3, 0, 1,  6, 7, 4, 5,  10, 11, 8, 9,  14, 15, 12, 13]

/-- Rotate each four-byte column left by three. -/
def rotCol3 (s : V128) : V128 :=
  i8x16Shuffle s s ![3, 0, 1, 2,  7, 4, 5, 6,  11, 8, 9, 10,  15, 12, 13, 14]

def aesMixColumns (s : V128) : V128 :=
  let t := aesXtime s
  let sRot1 := rotCol1 s
  let sRot2 := rotCol2 s
  let sRot3 := rotCol3 s
  let tRot1 := rotCol1 t
  let out := v128Xor t tRot1
  let out := v128Xor out sRot1
  let out := v128Xor out sRot2
  v128Xor out sRot3

/-- InvMixColumns, as MixColumns plus eight times the column sum plus four times the sum of
every other byte. -/
def aesInvMixColumns (s : V128) : V128 :=
  let mc := aesMixColumns s
  let sRot1 := rotCol1 s
  let sRot2 := rotCol2 s
  let sRot3 := rotCol3 s
  let colSum := v128Xor s sRot1
  let colSum := v128Xor colSum sRot2
  let colSum := v128Xor colSum sRot3
  let altSum := v128Xor s sRot2
  let fourAlt := aesXtime (aesXtime altSum)
  let eightCol := aesXtime (aesXtime (aesXtime colSum))
  let mDiff := v128Xor eightCol fourAlt
  v128Xor mc mDiff

/-! ## The key schedule -/

/-- OpenSSL's `AES_KEY`: room for the columns of fifteen round keys, and the number of rounds. -/
structure AESKey where
  rdKey : Vector (BitVec 32) 60
  rounds : ℤ

namespace AESKey

/-- The memory at `key->rd_key`: the columns one after the other, each in little-endian order. -/
def bytes (key : AESKey) (i : ℕ) : BitVec 8 :=
  (key.rdKey.getD (i / 4) 0).extractLsb' (8 * (i % 4)) 8

/-- The numbers of rounds of AES-128, AES-192 and AES-256. -/
def SupportedRounds (key : AESKey) : Prop :=
  key.rounds = 10 ∨ key.rounds = 12 ∨ key.rounds = 14

instance (key : AESKey) : Decidable key.SupportedRounds :=
  inferInstanceAs (Decidable (_ ∨ _ ∨ _))

end AESKey

/-- Load the round key at `rk`, undoing the byte reversal within each column. -/
def loadRoundKey (rk : ℕ → BitVec 8) : V128 :=
  let raw : V128 := fun i => rk i
  i8x16Shuffle raw raw ![
     3,  2,  1,  0,
     7,  6,  5,  4,
    11, 10,  9,  8,
    15, 14, 13, 12]

/-- The key pointer after `rk += 16`. -/
def nextKey (rk : ℕ → BitVec 8) : ℕ → BitVec 8 := fun i => rk (i + 16)

/-! ## The block functions -/

/-- The loop body of `aes_encrypt_simd`, on the state and the key pointer. -/
def encryptRound (st : V128 × (ℕ → BitVec 8)) : V128 × (ℕ → BitVec 8) :=
  let state := aesSubBytes st.1
  let state := aesShiftRows state
  let state := aesMixColumns state
  (v128Xor state (loadRoundKey st.2), nextKey st.2)

def aesEncryptSimd (input : V128) (key : AESKey) : V128 :=
  let rk := key.bytes
  let state := v128Xor input (loadRoundKey rk)
  -- the loop runs for `round` from 1 below `rounds`
  let st := encryptRound^[(key.rounds - 1).toNat] (state, nextKey rk)
  let state := aesSubBytes st.1
  let state := aesShiftRows state
  v128Xor state (loadRoundKey st.2)

/-- The loop body of `aes_decrypt_simd`, on the state and the key pointer. -/
def decryptRound (st : V128 × (ℕ → BitVec 8)) : V128 × (ℕ → BitVec 8) :=
  let state := aesInvSubBytes st.1
  let state := aesInvShiftRows state
  let state := aesInvMixColumns state
  (v128Xor state (loadRoundKey st.2), nextKey st.2)

def aesDecryptSimd (input : V128) (key : AESKey) : V128 :=
  let rk := key.bytes
  let state := v128Xor input (loadRoundKey rk)
  let st := decryptRound^[(key.rounds - 1).toNat] (state, nextKey rk)
  let state := aesInvSubBytes st.1
  let state := aesInvShiftRows state
  v128Xor state (loadRoundKey st.2)

/-- `__wrap_AES_encrypt`, over OpenSSL's own `AES_encrypt`. -/
def wrapAESEncrypt (realAESEncrypt : V128 → AESKey → V128) (input : V128) (key : AESKey) : V128 :=
  if key.SupportedRounds then aesEncryptSimd input key else realAESEncrypt input key

/-- `__wrap_AES_decrypt`, over OpenSSL's own `AES_decrypt`. -/
def wrapAESDecrypt (realAESDecrypt : V128 → AESKey → V128) (input : V128) (key : AESKey) : V128 :=
  if key.SupportedRounds then aesDecryptSimd input key else realAESDecrypt input key

end OpenSSLWasm.AesSimd
