import GemCore.Stellar.Transaction

/-!
# The bytes of Stellar transactions

`gem_stellar/src/signer/serialization.rs`: the encoders append to a buffer, and the padding of a memo
depends on what the buffer holds.

## Main definitions

* `encodeAsset`, `encodeMemo`, `encodeTimeBounds` — the encoders of the parts.
* `encodeTransaction` — `encode_transaction`.
-/

namespace GemCore.Stellar

/-- `write_u32`. -/
def writeU32 (data : List UInt8) (value : UInt32) : List UInt8 :=
  data ++ Lib.beBytes 4 value.toNat

/-- `write_u64`. -/
def writeU64 (data : List UInt8) (value : UInt64) : List UInt8 :=
  data ++ Lib.beBytes 8 value.toNat

/-- `pad4`. -/
def pad4 (data : List UInt8) : List UInt8 :=
  data ++ List.replicate ((4 - data.length % 4) % 4) 0

/-- `ASSET_TYPE_NATIVE`. -/
def assetTypeNative : UInt32 := 0

/-- `ASSET_TYPE_ALPHANUM4`. -/
def assetTypeAlphanum4 : UInt32 := 1

/-- `ASSET_TYPE_ALPHANUM12`. -/
def assetTypeAlphanum12 : UInt32 := 2

/-- `ED25519_KEY_TYPE`. -/
def ed25519KeyType : UInt32 := 0

/-- `encode_address`. -/
def encodeAddress (data : List UInt8) (address : StellarAddress) : List UInt8 :=
  writeU32 data ed25519KeyType ++ address.val

/-- `encode_asset`. -/
def encodeAsset (data : List UInt8) : Option StellarAssetData → List UInt8
  | some asset =>
    encodeAddress
      (match asset.code with
        | .alphanum4 code => writeU32 data assetTypeAlphanum4 ++ code.val
        | .alphanum12 code => writeU32 data assetTypeAlphanum12 ++ code.val)
      asset.issuer
  | none => writeU32 data assetTypeNative

/-- `encode_memo`. -/
def encodeMemo (data : List UInt8) : Memo → List UInt8
  | .none => writeU32 data 0
  | .text text =>
    pad4 (writeU32 (writeU32 data 1) (UInt32.ofNat (utf8 text).length) ++ utf8 text)
  | .id id => writeU64 (writeU32 data 2) id

/-- `encode_time_bounds`: a bound of zero is none. -/
def encodeTimeBounds (data : List UInt8) (tx : StellarTransaction) : List UInt8 :=
  match tx.timeBounds.filter fun v => 0 < v with
  | some «to» => writeU64 (writeU64 (writeU32 data 1) 0) «to»
  | none => writeU32 data 0

/-- `encode_create_account`. -/
def encodeCreateAccount (data : List UInt8) (destination : StellarAddress) (amount : UInt64) :
    List UInt8 :=
  writeU64 (encodeAddress data destination) amount

/-- `encode_payment`. -/
def encodePayment (data : List UInt8) (destination : StellarAddress)
    (asset : Option StellarAssetData) (amount : UInt64) : List UInt8 :=
  writeU64 (encodeAsset (encodeAddress data destination) asset) amount

/-- `i64::MAX as u64`. -/
def maxLimit : UInt64 := 9223372036854775807

/-- `encode_change_trust`: the largest limit there is. -/
def encodeChangeTrust (data : List UInt8) (asset : StellarAssetData) : List UInt8 :=
  writeU64 (encodeAsset data (some asset)) maxLimit

/-- The bytes of the operation itself. -/
def encodeOperation (data : List UInt8) : Operation → List UInt8
  | .createAccount destination amount => encodeCreateAccount data destination amount
  | .payment destination asset amount => encodePayment data destination asset amount
  | .changeTrust asset => encodeChangeTrust data asset

/-- `encode_transaction`. -/
def encodeTransaction (tx : StellarTransaction) : List UInt8 :=
  let data := encodeAddress [] tx.account
  let data := writeU32 data tx.fee
  let data := writeU64 data tx.sequence
  let data := encodeTimeBounds data tx
  let data := encodeMemo data tx.memo
  -- one operation, of the account of the transaction
  let data := writeU32 data 1
  let data := writeU32 data 0
  let data := writeU32 data tx.operation.operationType
  let data := encodeOperation data tx.operation
  -- no extension
  writeU32 data 0

end GemCore.Stellar
