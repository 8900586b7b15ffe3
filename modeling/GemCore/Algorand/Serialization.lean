import GemCore.Lib.Bytes
import GemCore.Primitives.SignerError

/-!
# Algorand transactions

The transactions of an Algorand wallet and their MessagePack bytes
(`gem_algorand/src/signer/serialization.rs`, `models/signing/operation.rs`, `transaction.rs`). Each
encoder is modelled by the bytes it appends.

## Main definitions

* `Operation`, `AlgorandTransaction` — the transactions.
* `encodeUint`, `encodeString`, `encodeBytes` — the encoders of values.
* `encodeTransaction` — `encode_transaction`.
-/

namespace GemCore.Algorand

open Lib

/-- The bytes of an `AlgorandAddress`. -/
abbrev AlgorandAddress : Type := FixedBytes 32

/-! ## Operations -/

/-- `Operation`. -/
inductive Operation where
  | payment (destination : AlgorandAddress) (amount : UInt64)
  | assetTransfer (destination : AlgorandAddress) (amount assetId : UInt64)
  | assetOptIn (assetId : UInt64)

namespace Operation

/-- `Operation::tx_type`. -/
def txType : Operation → String
  | payment _ _ => "pay"
  | assetTransfer _ _ _ => "axfer"
  | assetOptIn _ => "axfer"

/-- `Operation::size`: the number of fields. -/
def size : Operation → UInt8
  | payment _ amount => if amount = 0 then 8 else 9
  | assetTransfer _ _ _ => 10
  | assetOptIn _ => 9

/-- `Operation::payment_amount`. -/
def paymentAmount : Operation → Option UInt64
  | payment _ amount => if 0 < amount then some amount else none
  | assetTransfer _ _ _ => none
  | assetOptIn _ => none

end Operation

/-- `AlgorandTransaction`. -/
structure AlgorandTransaction where
  sender : AlgorandAddress
  fee : UInt64
  firstRound : UInt64
  lastRound : UInt64
  genesisId : String
  genesisHash : List UInt8
  note : List UInt8
  operation : Operation

/-! ## Values -/

/-- `encode_string`: a length of 32 or more is kept in one byte. -/
def encodeString (value : String) : List UInt8 :=
  let bytes := value.toUTF8.data.toList
  if bytes.length < 0x20 then (0xa0 ||| UInt8.ofNat bytes.length) :: bytes
  else 0xd9 :: UInt8.ofNat bytes.length :: bytes

/-- `encode_uint`. -/
def encodeUint (value : UInt64) : List UInt8 :=
  if value.toNat < 0x80 then [UInt8.ofNat value.toNat]
  else if value.toNat < 0x100 then [0xcc, UInt8.ofNat value.toNat]
  else if value.toNat < 0x10000 then 0xcd :: beBytes 2 value.toNat
  else if value.toNat < 0x100000000 then 0xce :: beBytes 4 value.toNat
  else 0xcf :: beBytes 8 value.toNat

/-- `encode_bytes`: a length of 256 or more is kept in two bytes. -/
def encodeBytes (bytes : List UInt8) : List UInt8 :=
  if bytes.length < 0x100 then 0xc4 :: UInt8.ofNat bytes.length :: bytes
  else 0xc5 :: (beBytes 2 bytes.length ++ bytes)

/-- `encode_address`. -/
def encodeAddress (address : AlgorandAddress) : List UInt8 := encodeBytes address.val

/-! ## Transactions -/

/-- `encode_common_fields`. -/
def encodeCommonFields (tx : AlgorandTransaction) : List UInt8 :=
  encodeString "fee" ++ encodeUint tx.fee ++
    (encodeString "fv" ++ encodeUint tx.firstRound) ++
    (encodeString "gen" ++ encodeString tx.genesisId) ++
    (encodeString "gh" ++ encodeBytes tx.genesisHash) ++
    (encodeString "lv" ++ encodeUint tx.lastRound) ++
    if tx.note.isEmpty then [] else encodeString "note" ++ encodeBytes tx.note

/-- `encode_sender_and_type`. -/
def encodeSenderAndType (tx : AlgorandTransaction) : List UInt8 :=
  encodeString "snd" ++ encodeAddress tx.sender ++
    (encodeString "type" ++ encodeString tx.operation.txType)

/-- `encode_payment`. -/
def encodePayment (tx : AlgorandTransaction) (destination : AlgorandAddress) : List UInt8 :=
  encodeCommonFields tx ++ (encodeString "rcv" ++ encodeAddress destination) ++
    encodeSenderAndType tx

/-- `encode_asset_transfer`. -/
def encodeAssetTransfer (tx : AlgorandTransaction) (destination : AlgorandAddress)
    (amount assetId : UInt64) : List UInt8 :=
  encodeString "aamt" ++ encodeUint amount ++
    (encodeString "arcv" ++ encodeAddress destination) ++ encodeCommonFields tx ++
    encodeSenderAndType tx ++ (encodeString "xaid" ++ encodeUint assetId)

/-- `encode_asset_opt_in`: the receiver is the sender. -/
def encodeAssetOptIn (tx : AlgorandTransaction) (assetId : UInt64) : List UInt8 :=
  encodeString "arcv" ++ encodeAddress tx.sender ++ encodeCommonFields tx ++
    encodeSenderAndType tx ++ (encodeString "xaid" ++ encodeUint assetId)

/-- The size that `encode_transaction` writes: that of the operation, and one more with a note. -/
def AlgorandTransaction.size (tx : AlgorandTransaction) : UInt8 :=
  if tx.note.isEmpty then tx.operation.size else tx.operation.size + 1

/-- `encode_transaction`. -/
def encodeTransaction (tx : AlgorandTransaction) : Except SignerError (List UInt8) :=
  let amount := match tx.operation.paymentAmount with
    | some amount => encodeString "amt" ++ encodeUint amount
    | none => []
  let fields := match tx.operation with
    | .payment destination _ => encodePayment tx destination
    | .assetTransfer destination amount assetId => encodeAssetTransfer tx destination amount assetId
    | .assetOptIn assetId => encodeAssetOptIn tx assetId
  .ok ((0x80 ||| tx.size) :: (amount ++ fields))

end GemCore.Algorand
