import OpenSSLWasm.Support

/-!
# Types of the key interface

## Main definitions

* `DigestAlgorithm`: the digests of the interface;
* `PkeyError`: its errors.
-/

namespace OpenSSLWasm

/-- `digest.algorithm`, which other interfaces use as `hash`. -/
inductive DigestAlgorithm
  | md5
  | sha1
  | sha224
  | sha256
  | sha384
  | sha512
  | sha512t224
  | sha512t256
  | sha3t224
  | sha3t256
  | sha3t384
  | sha3t512
  | shake128
  | shake256
  | blake2s256
  | blake2b512
  | ripemd160
  | sm3
  deriving DecidableEq, Repr

namespace Pkey

/-- `pkey-error`. -/
inductive PkeyError
  | unsupportedType
  | badEncoding
  | badPassphrase
  | unsupportedCurve
  | invalidSignature
  | badKeySize
  | decryptFailed
  | encryptFailed
  | signFailed
  | verifyFailed
  | deriveFailed
  | keygenFailed
  | internal (code : BitVec 32)
  deriving DecidableEq, Repr

end Pkey

end OpenSSLWasm
