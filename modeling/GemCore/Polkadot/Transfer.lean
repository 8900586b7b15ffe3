import GemCore.Lib.Scale
import GemCore.Primitives.Base58
import GemCore.Primitives.Hex
import GemCore.Primitives.SignerError

/-!
# Polkadot transfers

The extrinsic of a native transfer and the payload that is signed for it
(`gem_polkadot/src/transfer.rs`, `address.rs`). Each encoder is modelled by the bytes it appends.

## Main definitions

* `encodeCompactInteger` — `encode_compact_integer`.
* `MortalEra` — the era of a transaction.
* `fromInput` — `NativeTransferTransaction::from_input`.
* `NativeTransferTransaction.encode` — the signed extrinsic.
-/

namespace GemCore.Polkadot

open Lib

/-- The third-party functions of the transfer. -/
structure PolkadotLib where
  /-- `blake2b_256`. -/
  blake2b256 : List UInt8 → FixedBytes 32
  /-- `blake2b_512`. -/
  blake2b512 : List UInt8 → FixedBytes 64
  /-- The text of a hex error. -/
  hexError : String → String

/-! ## Addresses -/

/-- `PolkadotAddress::checksum`. -/
def checksum (lib : PolkadotLib) (data : List UInt8) : List UInt8 :=
  (lib.blake2b512 ("SS58PRE".toUTF8.data.toList ++ data)).val.take 2

/-- The bytes between the prefix and the checksum. -/
lemma length_account {lib : PolkadotLib} {decoded : List UInt8}
    (h : decoded.length = 35 ∧ decoded.head? = some 0 ∧
      decoded.drop 33 = checksum lib (decoded.take 33)) :
    ((decoded.drop 1).take 32).length = 32 := by
  rw [List.length_take, List.length_drop]
  omega

/-- `PolkadotAddress::try_parse`. -/
def tryParse (lib : PolkadotLib) (value : String) : Option (FixedBytes 32) :=
  if 60 < value.toUTF8.data.toList.length then none
  else
    match Base58.decode value with
    | none => none
    | some decoded =>
      if h : decoded.length = 35 ∧ decoded.head? = some 0 ∧
          decoded.drop 33 = checksum lib (decoded.take 33) then
        some ⟨(decoded.drop 1).take 32, length_account h⟩
      else none

/-- `PolkadotAddress::parse`. -/
def parseAddress (lib : PolkadotLib) (value : String) : Except SignerError (FixedBytes 32) :=
  okOr (tryParse lib value) (.invalidInput "invalid Polkadot address")

/-! ## Encoders -/

/-- The number of bytes up to the last that is not zero, of the sixteen bytes of a value. -/
def bytesNeeded (value : ℕ) : ℕ :=
  match ((leBytes 16 value).reverse.dropWhile (· = 0)).length with
  | 0 => 1
  | n + 1 => n + 1

/-- `encode_compact_integer`. -/
def encodeCompactInteger (value : ℕ) : List UInt8 :=
  if value ≤ 0b00111111 then [UInt8.ofNat (value <<< 2)]
  else if value ≤ 0b0011111111111111 then leBytes 2 (value <<< 2 ||| 0b01)
  else if value ≤ 0b00111111111111111111111111111111 then leBytes 4 (value <<< 2 ||| 0b10)
  else
    UInt8.ofNat (0b11 ||| (bytesNeeded value - 4) <<< 2) ::
      (leBytes 16 value).take (bytesNeeded value)

/-- `encode_multi_address`. -/
def encodeMultiAddress (address : List UInt8) (usesMultiAddress : Bool) : List UInt8 :=
  if usesMultiAddress then 0x00 :: address else address

/-! ## Eras -/

/-- `MortalEra`. -/
structure MortalEra where
  period : ℕ
  phase : ℕ

/-- `MORTAL_ERA_MIN_PERIOD`. -/
def mortalEraMinPeriod : ℕ := 4

/-- `MORTAL_ERA_MAX_PERIOD`. -/
def mortalEraMaxPeriod : ℕ := 1 <<< 16

/-- `u64::checked_next_power_of_two`. -/
def checkedNextPowerOfTwo (n : ℕ) : Option ℕ :=
  if 2 ^ Nat.clog 2 n < u64Size then some (2 ^ Nat.clog 2 n) else none

/-- The period of `MortalEra::new`: a power of two from 4 to 65536. -/
def roundedPeriod (period : ℕ) : ℕ :=
  min (max ((checkedNextPowerOfTwo period).getD mortalEraMaxPeriod) mortalEraMinPeriod)
    mortalEraMaxPeriod

/-- `MortalEra::new`. -/
def MortalEra.new (period blockNumber : ℕ) : Except SignerError MortalEra :=
  if period < mortalEraMinPeriod then
    .error (.invalidInput "Polkadot mortal era period must be at least 4")
  else
    let period := roundedPeriod period
    let quantizeFactor := max (period >>> 12) 1
    .ok ⟨period, blockNumber % period / quantizeFactor * quantizeFactor⟩

/-- `u64::trailing_zeros`. -/
def trailingZeros (n : ℕ) : ℕ := ((List.range 64).takeWhile fun i => !n.testBit i).length

/-- `MortalEra::encode`. -/
def MortalEra.encode (era : MortalEra) : List UInt8 :=
  let quantizeFactor := max (era.period >>> 12) 1
  leBytes 2 (min (max (trailingZeros era.period - 1) 1) 15 |||
    (era.phase / quantizeFactor) <<< 4)

/-! ## Transactions -/

/-- The metadata of a transfer. -/
structure PolkadotMetadata where
  sequence : ℕ
  genesisHash : String
  blockHash : String
  blockNumber : ℕ
  specVersion : ℕ
  transactionVersion : ℕ
  period : ℕ

/-- The metadata of a request: that of Polkadot, or of another kind with or without a sequence. -/
inductive Metadata where
  | polkadot (metadata : PolkadotMetadata)
  | other (hasSequence : Bool)

/-- `TransactionLoadInput`, with the fields a transfer reads. -/
structure Input where
  destinationAddress : String
  value : ℕ
  metadata : Metadata

/-- `NativeTransferSigningPayload`. -/
structure NativeTransferSigningPayload where
  specVersion : ℕ
  transactionVersion : ℕ
  genesisHash : FixedBytes 32
  blockHash : FixedBytes 32
  deriving DecidableEq

/-- `NativeTransferParameters`. -/
structure NativeTransferParameters where
  sequence : ℕ
  specVersion : ℕ
  era : MortalEra
  signingPayload : NativeTransferSigningPayload

/-- `NativeTransferTransaction`. -/
structure NativeTransferTransaction where
  call : List UInt8
  extra : List UInt8
  signerAccountId : FixedBytes 32
  usesMultiAddress : Bool
  signingPayload : NativeTransferSigningPayload
  deriving DecidableEq

/-- `u32::try_from`, with the text of its error. -/
def tryU32 (value : ℕ) : Except SignerError ℕ :=
  if value < 2 ^ 32 then .ok value
  else .error (.invalidInput "out of range integral type conversion attempted")

/-- `checks_metadata`. -/
def checksMetadata (specVersion : ℕ) : Bool := 1002005 ≤ specVersion

/-- `NativeTransferParameters::uses_multi_address`. -/
def NativeTransferParameters.usesMultiAddress (parameters : NativeTransferParameters) : Bool :=
  28 ≤ parameters.specVersion

/-- `NativeTransferParameters::encode_extra`. -/
def NativeTransferParameters.encodeExtra (parameters : NativeTransferParameters) : List UInt8 :=
  parameters.era.encode ++ encodeCompactInteger parameters.sequence ++ encodeCompactInteger 0 ++
    [0x00] ++ if checksMetadata parameters.specVersion then [0x00] else []

/-- `NativeTransferTransaction::encode_call`. -/
def encodeCall (destination : List UInt8) (value : ℕ) (usesMultiAddress : Bool) : List UInt8 :=
  [0x0a, 0x00] ++ encodeMultiAddress destination usesMultiAddress ++ encodeCompactInteger value

variable (lib : PolkadotLib)

/-- `decode_hex_array` of a hash. -/
def decodeHash (value : String) : Except SignerError (FixedBytes 32) :=
  okOr (decodeHexArray 32 value) (.invalidInput (lib.hexError value))

/-- `NativeTransferSigningPayload::new`. -/
def NativeTransferSigningPayload.new (genesisHash blockHash : String)
    (specVersion transactionVersion : ℕ) : Except SignerError NativeTransferSigningPayload := do
  let transactionVersion ← tryU32 transactionVersion
  let genesisHash ← decodeHash lib genesisHash
  let blockHash ← decodeHash lib blockHash
  .ok ⟨specVersion, transactionVersion, genesisHash, blockHash⟩

/-- `NativeTransferParameters::from_input`. -/
def NativeTransferParameters.fromInput (input : Input) :
    Except SignerError NativeTransferParameters :=
  match input.metadata with
  | .other false => .error (.invalidInput "Sequence not available for this metadata type")
  | .other true => .error (.invalidInput "missing Polkadot metadata")
  | .polkadot metadata => do
    let specVersion ← tryU32 metadata.specVersion
    let era ← MortalEra.new metadata.period metadata.blockNumber
    let signingPayload ← NativeTransferSigningPayload.new lib metadata.genesisHash
      metadata.blockHash specVersion metadata.transactionVersion
    .ok ⟨metadata.sequence, specVersion, era, signingPayload⟩

/-- `NativeTransferTransaction::from_input`. -/
def fromInput (input : Input) (signerAccountId : FixedBytes 32) :
    Except SignerError NativeTransferTransaction := do
  let parameters ← NativeTransferParameters.fromInput lib input
  let destination ← parseAddress lib input.destinationAddress
  if 2 ^ 128 ≤ input.value then .error (.invalidInput "polkadot amount is too large")
  else .ok {
    call := encodeCall destination.val input.value parameters.usesMultiAddress
    extra := parameters.encodeExtra
    signerAccountId := signerAccountId
    usesMultiAddress := parameters.usesMultiAddress
    signingPayload := parameters.signingPayload }

/-- The extrinsic without its length. -/
def NativeTransferTransaction.body (transaction : NativeTransferTransaction)
    (signature : FixedBytes 64) : List UInt8 :=
  [0x84] ++ encodeMultiAddress transaction.signerAccountId.val transaction.usesMultiAddress ++
    [0x00] ++ signature.val ++ transaction.extra ++ transaction.call

/-- `NativeTransferTransaction::encode`. -/
def NativeTransferTransaction.encode (transaction : NativeTransferTransaction)
    (signature : FixedBytes 64) : List UInt8 :=
  encodeCompactInteger (transaction.body signature).length ++ transaction.body signature

/-- The payload of `NativeTransferSigningPayload::encode`, before it is hashed. -/
def NativeTransferTransaction.payload (transaction : NativeTransferTransaction) : List UInt8 :=
  transaction.call ++ transaction.extra ++
    leBytes 4 transaction.signingPayload.specVersion ++
    leBytes 4 transaction.signingPayload.transactionVersion ++
    transaction.signingPayload.genesisHash.val ++ transaction.signingPayload.blockHash.val ++
    if checksMetadata transaction.signingPayload.specVersion then [0x00] else []

/-- `NativeTransferTransaction::signing_payload`: a long payload is hashed. -/
def NativeTransferTransaction.signedPayload (transaction : NativeTransferTransaction) : List UInt8 :=
  if 256 < transaction.payload.length then (lib.blake2b256 transaction.payload).val
  else transaction.payload

end GemCore.Polkadot
