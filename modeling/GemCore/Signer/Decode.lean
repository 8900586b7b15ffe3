import GemCore.Primitives.Base58
import GemCore.Primitives.ChainConfig
import GemCore.Primitives.Serde

/-!
# Private keys as text

The import and export of a private key as text (`signer/src/decode.rs`). The encodings of a chain
are tried one after the other, and the first that gives a key of the chain's scheme is taken.

## Main definitions

* `KeyEncoding`, `importEncodingsForChain` — the encodings of a chain.
* `decodeBase58`, `decodeStellarStrkey` — the readers of the encodings.
* `decodePrivateKey`, `encodePrivateKey` — the two entry points.
-/

namespace GemCore.Signer

open Keystore (encodeHex)

/-! ## Schemes and encodings -/

/-- `SignatureScheme`. -/
inductive SignatureScheme where
  | ed25519
  | ed25519CardanoExtended
  | secp256k1
  deriving DecidableEq

/-- `SignatureScheme::as_ref`: the name in lower case. -/
def SignatureScheme.asRef : SignatureScheme → String
  | ed25519 => "ed25519"
  | ed25519CardanoExtended => "ed25519cardanoextended"
  | secp256k1 => "secp256k1"

/-- `KeyEncoding`. -/
inductive KeyEncoding where
  | hex
  | base58
  | prefixedBase58 (scheme : SignatureScheme)
  | stellarStrKey

/-- `import_encodings_for_chain`. -/
def importEncodingsForChain (chain : Chain) : List KeyEncoding :=
  match chain.chainType with
  | .bitcoin | .cardano => []
  | .solana => [.base58, .hex]
  | .stellar => [.stellarStrKey, .hex]
  | .near => [.prefixedBase58 .ed25519, .hex]
  | _ => [.hex]

/-- `export_encoding_for_chain`. -/
def exportEncodingForChain (chain : Chain) : KeyEncoding :=
  match chain.chainType with
  | .bitcoin | .solana => .base58
  | _ => .hex

/-- `supports_private_key_import`. -/
def supportsPrivateKeyImport (chain : Chain) : Bool := !(importEncodingsForChain chain).isEmpty

/-- `scheme_for_chain`. -/
def schemeForChain (chain : Chain) : SignatureScheme :=
  match chain.chainType with
  | .solana | .ton | .aptos | .sui | .near | .stellar | .algorand | .polkadot => .ed25519
  | .cardano => .ed25519CardanoExtended
  | _ => .secp256k1

/-- The third-party functions of the keys. -/
structure KeyLib where
  /-- The public key of an Ed25519 secret key. -/
  publicKey : Lib.FixedBytes 32 → Lib.FixedBytes 32
  /-- `k256::ecdsa::SigningKey::from_slice(..).is_ok()`. -/
  isSecp256k1Key : List UInt8 → Bool

/-! ## Base58 -/

/-- `str::strip_prefix`. -/
def stripStart (start text : List Char) : Option (List Char) :=
  if start.isPrefixOf text then some (text.drop start.length) else none

section Base58

variable (lib : KeyLib)

/-- `ed25519_dalek::SigningKey::from_keypair_bytes(..).is_ok()`: the second half is the public key of
the first. -/
def isKeypair (keypair : Lib.FixedBytes 64) : Bool :=
  (lib.publicKey ⟨keypair.val.take 32, by
    rw [List.length_take, keypair.property]
    rfl⟩).val = keypair.val.drop 32

/-- `decode_base58`: the bytes of a key, or those of a keypair. -/
def decodeBase58 (value : String) : Option (List UInt8) :=
  match Base58.decode value with
  | none => none
  | some decoded =>
    if decoded.length = 32 then some decoded
    else if h : decoded.length = 64 then
      if isKeypair lib ⟨decoded, h⟩ then some (decoded.take 32) else none
    else none

/-- `decode_prefixed_base58`. -/
def decodePrefixedBase58 (value : String) (scheme : SignatureScheme) : Option (List UInt8) := do
  let rest ← stripStart scheme.asRef.toList value.toList
  let rest ← stripStart [':'] rest
  decodeBase58 lib (String.ofList rest)

end Base58

/-! ## Stellar -/

/-- `base32_decode_char`. -/
def base32DecodeChar (c : UInt8) : Option ℕ :=
  if 65 ≤ c.toNat ∧ c.toNat ≤ 90 then some (c.toNat - 65)
  else if 50 ≤ c.toNat ∧ c.toNat ≤ 55 then some (c.toNat - 50 + 26)
  else none

/-- The loop of `base32_decode`: the bits that are not yet a byte wait in `buffer`. -/
def base32Loop : List UInt8 → ℕ → ℕ → List UInt8 → Option (List UInt8)
  | [], _, _, output => some output
  | c :: rest, buffer, bits, output =>
    if c.toNat = 61 then some output
    else
      match base32DecodeChar c with
      | none => none
      | some val =>
        if 8 ≤ bits + 5 then
          base32Loop rest ((buffer <<< 5 ||| val) &&& (1 <<< (bits + 5 - 8) - 1)) (bits + 5 - 8)
            (output ++ [UInt8.ofNat ((buffer <<< 5 ||| val) >>> (bits + 5 - 8))])
        else base32Loop rest (buffer <<< 5 ||| val) (bits + 5) output

/-- `base32_decode`. -/
def base32Decode (input : List UInt8) : Option (List UInt8) := base32Loop input 0 0 []

/-- One of the eight rounds of `crc16_xmodem` for a byte. -/
def crc16Round (crc : UInt16) : UInt16 :=
  if crc &&& 0x8000 ≠ 0 then crc <<< 1 ^^^ 0x1021 else crc <<< 1

/-- `crc16_xmodem`. -/
def crc16Xmodem (data : List UInt8) : UInt16 :=
  data.foldl (fun crc byte => Nat.iterate crc16Round 8 (crc ^^^ (byte.toUInt16 <<< (8 : UInt16)))) 0

/-- `decode_stellar_strkey`. -/
def decodeStellarStrkey (value : String) : Option (List UInt8) :=
  if value.toUTF8.data.toList.length ≠ 56 ∨ value.toList.head? ≠ some 'S' then none
  else
    match base32Decode value.toUTF8.data.toList with
    | none => none
    | some decoded =>
      if decoded.length ≠ 35 ∨ decoded.head? ≠ some 0x90 then none
      else if (crc16Xmodem (decoded.take 33)).toNat ≠ Lib.ofLe (decoded.drop 33) then none
      else some ((decoded.drop 1).take 32)

/-! ## Keys -/

/-- `CARDANO_EXTENDED_PRIVATE_KEY_LENGTH`. -/
def cardanoExtendedPrivateKeyLength : ℕ := 192

section Keys

variable (lib : KeyLib)

/-- `validate_key`. -/
def validateKey (bytes : List UInt8) (scheme : SignatureScheme) : Except SignerError Unit :=
  match scheme with
  | .ed25519 =>
    if bytes.length = 32 then .ok () else .error (.invalidInput "Invalid ed25519 private key")
  | .secp256k1 =>
    if lib.isSecp256k1Key bytes then .ok ()
    else .error (.invalidInput "Invalid secp256k1 private key")
  | .ed25519CardanoExtended =>
    if bytes.length = cardanoExtendedPrivateKeyLength then .ok ()
    else .error (.invalidInput "Invalid Cardano extended private key")

/-- What one encoding makes of a text. -/
def decodeWith (encoding : KeyEncoding) (value : String) (scheme : SignatureScheme) :
    Option (List UInt8) :=
  match encoding with
  | .hex => decodeHex value
  | .base58 => decodeBase58 lib value
  | .prefixedBase58 prefixScheme =>
    if prefixScheme ≠ scheme then none else decodePrefixedBase58 lib value prefixScheme
  | .stellarStrKey => decodeStellarStrkey value

/-- `decode_key`: the first encoding that gives a key of the scheme. -/
def decodeKey (value : String) (scheme : SignatureScheme) :
    List KeyEncoding → Except SignerError (List UInt8)
  | [] => .error (.invalidInput "Invalid private key format")
  | encoding :: encodings =>
    match decodeWith lib encoding value scheme with
    | none => decodeKey value scheme encodings
    | some bytes =>
      match validateKey lib bytes scheme with
      | .ok () => .ok bytes
      | .error _ => decodeKey value scheme encodings

/-- `encode_key`. -/
def encodeKey (bytes : List UInt8) (encoding : KeyEncoding) : Except SignerError String :=
  match encoding with
  | .hex => .ok (String.ofList ('0' :: 'x' :: (encodeHex bytes).toList))
  | .base58 => .ok (Base58.encode bytes)
  | .prefixedBase58 _ => .error (.invalidInput "Unsupported private key export encoding")
  | .stellarStrKey => .error (.invalidInput "Unsupported private key export encoding")

/-- `decode_private_key`. -/
def decodePrivateKey (chain : Chain) (value : String) : Except SignerError (List UInt8) :=
  decodeKey lib value (schemeForChain chain) (importEncodingsForChain chain)

/-- `encode_private_key`. -/
def encodePrivateKey (chain : Chain) (privateKey : List UInt8) : Except SignerError String :=
  encodeKey privateKey (exportEncodingForChain chain)

end Keys

end GemCore.Signer
