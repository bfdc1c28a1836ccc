import OpenSSLWasm.AesSimd.Inverse
import OpenSSLWasm.Cipher.Aead
import OpenSSLWasm.Cipher.Basic
import OpenSSLWasm.Cipher.Lengths
import OpenSSLWasm.Cipher.Split
import OpenSSLWasm.Cipher.Verification
import OpenSSLWasm.Error
import OpenSSLWasm.Hex
import OpenSSLWasm.Lib.LengthPrefixed
import OpenSSLWasm.Lib.Setters
import OpenSSLWasm.Pkey.Basic
import OpenSSLWasm.Pkey.Encode
import OpenSSLWasm.Pkey.RsaPadding
import OpenSSLWasm.Provider.Activation
import OpenSSLWasm.Provider.Algorithms
import OpenSSLWasm.Provider.Params
import OpenSSLWasm.Provider.Signature
import OpenSSLWasm.Tls.Alpn
import OpenSSLWasm.Tls.Config
import OpenSSLWasm.Tls.Endpoint
import OpenSSLWasm.Tls.ErrorQueue
import OpenSSLWasm.Tls.Reference
import OpenSSLWasm.Tls.Ssl
import OpenSSLWasm.Tls.Truncation
import OpenSSLWasm.X509.Build
import OpenSSLWasm.X509.Crl
import OpenSSLWasm.X509.Options
import OpenSSLWasm.X509.Reports
import OpenSSLWasm.Lib.Slots
import OpenSSLWasm.Tls.AlpnSelect
import OpenSSLWasm.Tls.VerifyOptions
import OpenSSLWasm.Provider.SignatureParams
import OpenSSLWasm.Provider.Objects
import OpenSSLWasm.X509.Collect
import OpenSSLWasm.Tls.PeerChain
import OpenSSLWasm.X509.Pkcs12
import OpenSSLWasm.Cipher.Ccm
import OpenSSLWasm.Cipher.RoundTrip
import OpenSSLWasm.Lib.Cells
import OpenSSLWasm.Tls.Keylog
import OpenSSLWasm.Lib.Ledger
import OpenSSLWasm.Tls.BioPump
import OpenSSLWasm.Tls.Lifetime
import OpenSSLWasm.Tls.Ownership
import OpenSSLWasm.Tls.AlpnLifetime
import OpenSSLWasm.Tls.Transports
import OpenSSLWasm.Provider.Selection
import OpenSSLWasm.Provider.Tables
import OpenSSLWasm.Digest
import OpenSSLWasm.Provider.Handles
import OpenSSLWasm.X509.References
import OpenSSLWasm.OwnHandles
import OpenSSLWasm.Bignum
import OpenSSLWasm.Pkey.Generate
import OpenSSLWasm.Lib.Calendar
import OpenSSLWasm.Lib.Scan
import OpenSSLWasm.X509.Serial
import OpenSSLWasm.X509.Names
import OpenSSLWasm.X509.Timestamps
import OpenSSLWasm.Tls.AlpnReach
import OpenSSLWasm.X509.VerifyTime
import OpenSSLWasm.Cipher.Mismatch
import OpenSSLWasm.Pkey.SaveLoad
import OpenSSLWasm.Lib.Endian
import OpenSSLWasm.Provider.ParamValues
import OpenSSLWasm.Provider.Export
import OpenSSLWasm.Kdf
import OpenSSLWasm.Provider.BioDrain
import OpenSSLWasm.Cipher.Buffers
import OpenSSLWasm.BignumBytes
import OpenSSLWasm.Lib.Search
import OpenSSLWasm.AesSimd.MixColumns
import OpenSSLWasm.Provider.KeyUri
import OpenSSLWasm.DigestStream
import OpenSSLWasm.Mac.Basic
import OpenSSLWasm.Mac.Ledger
import OpenSSLWasm.Mac.Stream
import OpenSSLWasm.KdfRequests
import OpenSSLWasm.X509.Signing
import OpenSSLWasm.BignumStore
import OpenSSLWasm.Pkey.Exchange
import OpenSSLWasm.Pkey.Ledger
import OpenSSLWasm.Tls.Stream
import OpenSSLWasm.Cipher.Plain
