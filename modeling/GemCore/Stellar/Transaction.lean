import GemCore.Lib.Base32
import GemCore.Signer.Decode

/-!
# Stellar transactions

What a Stellar wallet signs and how it is made of a request (`gem_stellar/src/address.rs`,
`models/signing/asset.rs`, `operation.rs`, `transaction.rs`).

## Main definitions

* `StellarAddress` — an address and its text.
* `StellarAssetData`, `Operation`, `StellarTransaction` — the transactions.
* `SignerInput` — the request.
* `transfer`, `tokenTransfer`, `accountAction` — the transaction of a request.

## Main results

* `StellarAddress.encode_of_tryParse` — a text that is accepted is that of its address.
-/

namespace GemCore.Stellar

open Lib

/-- The bytes of a text. -/
def utf8 (text : String) : List UInt8 := text.toUTF8.data.toList

/-- The bytes are those of one text. -/
lemma utf8_injective : Function.Injective utf8 := by
  intro s t h
  have hs := fromUTF8?_eq_some_iff.mpr h
  have ht : String.fromUTF8? ⟨(utf8 t).toArray⟩ = some t := fromUTF8?_eq_some_iff.mpr rfl
  exact Option.some.inj (hs.symm.trans ht)

/-! ## Addresses -/

/-- The key of a `StellarAddress`. -/
abbrev StellarAddress : Type := FixedBytes 32

namespace StellarAddress

/-- `ED25519_PUBLIC_KEY_VERSION`. -/
def ed25519PublicKeyVersion : UInt8 := 0x30

/-- `ADDRESS_LENGTH`. -/
def addressLength : ℕ := 56

/-- `DECODED_LENGTH`. -/
def decodedLength : ℕ := 35

/-- `Base32Address::from_slice`. -/
def fromSlice (bytes : List UInt8) : Option StellarAddress :=
  if h : bytes.length = 32 then some ⟨bytes, h⟩ else none

/-- `try_parse`. -/
def tryParse (address : String) : Option StellarAddress :=
  if (utf8 address).length ≠ addressLength ∨ address.toList.head? ≠ some 'G' then none
  else do
    let decoded ← Base32.decode (utf8 address)
    if decoded.length ≠ decodedLength ∨ decoded.head? ≠ some ed25519PublicKeyVersion then none
    else if (Signer.crc16Xmodem (decoded.take 33)).toNat ≠ ofLe (decoded.drop 33) then none
    else fromSlice ((decoded.drop 1).take 32)

/-- The version, the key and the checksum of both. -/
def raw (address : StellarAddress) : List UInt8 :=
  ed25519PublicKeyVersion :: address.val ++
    leBytes 2 (Signer.crc16Xmodem (ed25519PublicKeyVersion :: address.val)).toNat

/-- `encode`: the letters of an address. -/
def encode (address : StellarAddress) : List UInt8 := Base32.encode address.raw

/-- **A text that is accepted is that of its address.** -/
theorem encode_of_tryParse {text : String} {address : StellarAddress}
    (h : tryParse text = some address) : address.encode = utf8 text := by
  rw [tryParse] at h
  split at h
  case isTrue => cases h
  case isFalse =>
    obtain ⟨decoded, hdecoded, h⟩ := Option.bind_eq_some_iff.mp h
    split at h
    case isTrue => cases h
    case isFalse hform =>
      obtain ⟨hlength, hversion⟩ := not_or.mp hform
      split at h
      case isTrue => cases h
      case isFalse hcrc =>
        rw [fromSlice] at h
        split at h
        case isFalse => cases h
        case isTrue =>
          obtain rfl := Option.some.inj h
          obtain ⟨version, rest, rfl⟩ : ∃ version rest, decoded = version :: rest :=
            List.exists_cons_of_length_eq_add_one (not_not.mp hlength)
          obtain rfl : version = ed25519PublicKeyVersion := Option.some.inj (not_not.mp hversion)
          have hrest : rest.length = 34 := Nat.succ.inj (not_not.mp hlength)
          have htake : (ed25519PublicKeyVersion :: rest).take 33 =
            ed25519PublicKeyVersion :: rest.take 32 := rfl
          have hdrop : (ed25519PublicKeyVersion :: rest).drop 33 = rest.drop 32 := rfl
          rw [htake, hdrop] at hcrc
          have hcheck : leBytes 2 (Signer.crc16Xmodem
              (ed25519PublicKeyVersion :: rest.take 32)).toNat = rest.drop 32 := by
            have hlen : (rest.drop 32).reverse.length = 2 := by
              rw [List.length_reverse, List.length_drop, hrest]
            rw [not_not.mp hcrc, leBytes, ofLe, ← hlen, beBytes_ofBe,
              List.reverse_reverse]
          rw [encode, raw]
          show Base32.encode (ed25519PublicKeyVersion :: rest.take 32 ++ leBytes 2
            (Signer.crc16Xmodem (ed25519PublicKeyVersion :: rest.take 32)).toNat) = _
          rw [hcheck, List.cons_append, List.take_append_drop]
          exact Base32.encode_of_decode hdecoded

end StellarAddress

/-! ## Assets -/

/-- `StellarAssetCode`. -/
inductive StellarAssetCode where
  | alphanum4 (code : FixedBytes 4)
  | alphanum12 (code : FixedBytes 12)

/-- `StellarAssetData`. -/
structure StellarAssetData where
  issuer : StellarAddress
  code : StellarAssetCode

/-- `u8::is_ascii_alphanumeric`. -/
def isAsciiAlphanumeric (byte : UInt8) : Bool :=
  (48 ≤ byte.toNat ∧ byte.toNat ≤ 57) ∨ (65 ≤ byte.toNat ∧ byte.toNat ≤ 90) ∨
    (97 ≤ byte.toNat ∧ byte.toNat ≤ 122)

/-- The bytes of a code, filled up with zeros. -/
def fill (n : ℕ) (code : List UInt8) : List UInt8 := code ++ List.replicate (n - code.length) 0

lemma length_fill {n : ℕ} {code : List UInt8} (h : code.length ≤ n) :
    (fill n code).length = n := by
  rw [fill, List.length_append, List.length_replicate, Nat.add_sub_cancel' h]

namespace StellarAssetCode

/-- The code of a text, by its length. -/
def new (code : List UInt8) : Except SignerError StellarAssetCode :=
  if code.length = 0 then
    .error (.invalidInput "Stellar asset code must be 1-12 characters")
  else if h : code.length ≤ 4 then .ok (alphanum4 ⟨fill 4 code, length_fill h⟩)
  else if h : code.length ≤ 12 then .ok (alphanum12 ⟨fill 12 code, length_fill h⟩)
  else .error (.invalidInput "Stellar asset code must be 1-12 characters")

end StellarAssetCode

namespace StellarAssetData

/-- `StellarAssetData::new`. -/
def new (issuer code : String) : Except SignerError StellarAssetData :=
  if (utf8 code).all isAsciiAlphanumeric then do
    let code ← StellarAssetCode.new (utf8 code)
    let issuer ← okOr (StellarAddress.tryParse issuer)
      (.invalidInput "invalid Stellar issuer address")
    .ok ⟨issuer, code⟩
  else .error (.invalidInput "Stellar asset code must be ASCII alphanumeric")

end StellarAssetData

/-! ## Requests -/

/-- `TransactionLoadMetadata`, as far as a Stellar signer reads it: `sequenced` are the other kinds
with a sequence or a nonce, and `other` those without. -/
inductive TransactionLoadMetadata where
  | stellar (sequence : UInt64) (isDestinationAddressExist : Bool)
  | sequenced (sequence : UInt64)
  | other

/-- `TransactionLoadMetadata::get_sequence`. -/
def TransactionLoadMetadata.getSequence : TransactionLoadMetadata → Except SignerError UInt64
  | stellar sequence _ | sequenced sequence => .ok sequence
  | other => .error (.invalidInput "Sequence not available for this metadata type")

/-- `TransactionLoadMetadata::get_is_destination_address_exist`. -/
def TransactionLoadMetadata.getIsDestinationAddressExist :
    TransactionLoadMetadata → Except SignerError Bool
  | stellar _ isDestinationAddressExist => .ok isDestinationAddressExist
  | sequenced _ | other =>
    .error (.invalidInput "Destination existence flag not available for this metadata type")

/-- `SignerInput`, with the asset of its input type. -/
structure SignerInput where
  asset : AssetId
  senderAddress : String
  destinationAddress : String
  value : ℕ
  memo : Option String
  metadata : TransactionLoadMetadata
  fee : ℤ

/-- `AssetId::split_sub_token_parts`. -/
def splitSubTokenParts (asset : AssetId) : Option (String × String) := do
  let tokenId ← asset.tokenId
  let parts ← splitOnceAt "::".toList tokenId.toList
  pure (String.ofList parts.1, String.ofList parts.2)

/-- `StellarAssetData::from_input`. -/
def StellarAssetData.fromInput (input : SignerInput) : Except SignerError StellarAssetData := do
  let parts ← okOr (splitSubTokenParts input.asset) (.invalidInput "invalid Stellar token ID")
  new parts.1 parts.2

/-- `SignerInput::value_as_u64`. -/
def SignerInput.valueAsU64 (input : SignerInput) : Except SignerError UInt64 :=
  if input.value < u64Size then .ok (UInt64.ofNat input.value)
  else .error (.invalidInput "transaction amount is too large")

/-! ## Transactions -/

/-- `Memo`. -/
inductive Memo where
  | none
  | text (text : String)
  | id (id : UInt64)
  deriving DecidableEq

/-- `Operation`. -/
inductive Operation where
  | createAccount (destination : StellarAddress) (amount : UInt64)
  | payment (destination : StellarAddress) (asset : Option StellarAssetData) (amount : UInt64)
  | changeTrust (asset : StellarAssetData)

/-- `Operation::operation_type`. -/
def Operation.operationType : Operation → UInt32
  | createAccount _ _ => 0
  | payment _ _ _ => 1
  | changeTrust _ => 6

/-- `StellarTransaction`. -/
structure StellarTransaction where
  account : StellarAddress
  fee : UInt32
  sequence : UInt64
  memo : Memo
  timeBounds : Option UInt64
  operation : Operation

/-- `MEMO_TEXT_MAX_BYTES`. -/
def memoTextMaxBytes : ℕ := 28

/-- `memo`. -/
def memo : Option String → Except SignerError Memo
  | some text =>
    if memoTextMaxBytes < (utf8 text).length then
      .error (.invalidInput "Stellar memo text must be at most 28 bytes")
    else .ok (.text text)
  | none => .ok .none

/-- `fee_u32`. -/
def feeU32 (input : SignerInput) : Except SignerError UInt32 :=
  if 0 ≤ input.fee ∧ input.fee < 2 ^ 32 then .ok (UInt32.ofNat input.fee.toNat)
  else .error (.invalidInput "invalid transaction fee")

/-- `StellarTransaction::build`. -/
def build (input : SignerInput) (fee : UInt32) (operation : Operation) :
    Except SignerError StellarTransaction := do
  let account ← okOr (StellarAddress.tryParse input.senderAddress)
    (.invalidInput "invalid Stellar address")
  let sequence ← input.metadata.getSequence
  let memo ← memo input.memo
  .ok { account, fee, sequence, memo, timeBounds := none, operation }

/-- `StellarTransaction::transfer`. -/
def transfer (input : SignerInput) : Except SignerError StellarTransaction := do
  let amount ← input.valueAsU64
  let destination ← okOr (StellarAddress.tryParse input.destinationAddress)
    (.invalidInput "invalid Stellar address")
  let isDestinationExist ← input.metadata.getIsDestinationAddressExist
  let fee ← feeU32 input
  build input fee (if isDestinationExist then .payment destination none amount
    else .createAccount destination amount)

/-- `StellarTransaction::token_transfer`. -/
def tokenTransfer (input : SignerInput) : Except SignerError StellarTransaction := do
  let isDestinationExist ← input.metadata.getIsDestinationAddressExist
  if isDestinationExist then do
    let amount ← input.valueAsU64
    let destination ← okOr (StellarAddress.tryParse input.destinationAddress)
      (.invalidInput "invalid Stellar address")
    let asset ← StellarAssetData.fromInput input
    let fee ← feeU32 input
    build input fee (.payment destination (some asset) amount)
  else .error (.invalidInput "Stellar destination account not found for token transfer")

/-- `StellarTransaction::account_action`. -/
def accountAction (input : SignerInput) : Except SignerError StellarTransaction := do
  let asset ← StellarAssetData.fromInput input
  let fee ← feeU32 input
  build input fee (.changeTrust asset)

end GemCore.Stellar
