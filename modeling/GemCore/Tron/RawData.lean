import GemCore.Protobuf.Wire
import GemCore.Tron.Contract

/-!
# The raw data of a Tron transaction

What is signed, what is shown and how one is compared with the other
(`gem_tron/src/models/signing/raw_data.rs`, `protobuf.rs`, `wallet_connect.rs`). The wallet writes
its own transactions twice, as protobuf bytes and as a JSON document; for a transaction of a
WalletConnect peer it reads the document that came with the bytes and writes bytes of its own to
compare.

## Main definitions

* `TronRawData.encode`, `TronRawData.json` — the two forms.
* `RawDataJson.deserialize`, `RawDataJson.encode` — a document, and the bytes it says.
* `WalletConnectTransaction.hash` — what is accepted for signing.

## Main results

* `TronRawData.deserialize_json` — the document of raw data is read.
* `TronRawData.encode_json` — and says the bytes of the raw data.
* `WalletConnectTransaction.hash_eq_ok_iff` — when a transaction is accepted.
-/

namespace GemCore.Tron

open Lib

open Protobuf (Write)
open Keystore (encodeHex)

/-! ## Messages -/

/-- `MessageEncode::encode` of the fields that are written. -/
def encodeFields (writes : List Write) : List UInt8 := writes.flatMap Write.encode

/-- `(value > 0).then_some(value)`. -/
def positive (value : UInt64) : Option ℕ := if 0 < value then some value.toNat else none

namespace Message

/-- `TransferContract`. -/
def transferContract (ownerAddress toAddress : List UInt8) (amount : Option ℕ) : List Write :=
  [.optionalBytes 1 (some ownerAddress), .optionalBytes 2 (some toAddress), .optionalU64 3 amount]

/-- `TriggerSmartContract`. -/
def triggerSmartContract (ownerAddress contractAddress : List UInt8) (callValue : Option ℕ)
    (data : List UInt8) (callTokenValue tokenId : Option ℕ) : List Write :=
  [.optionalBytes 1 (some ownerAddress), .optionalBytes 2 (some contractAddress),
    .optionalU64 3 callValue, .optionalBytes 4 (some data), .optionalU64 5 callTokenValue,
    .optionalU64 6 tokenId]

/-- `Vote`. -/
def vote (voteAddress : List UInt8) (voteCount : Option ℕ) : List Write :=
  [.optionalBytes 1 (some voteAddress), .optionalU64 2 voteCount]

/-- `VoteWitnessContract`. -/
def voteWitnessContract (ownerAddress : List UInt8) (votes : List (List Write))
    (support : Option Bool) : List Write :=
  .optionalBytes 1 (some ownerAddress) :: (votes.map fun v => .message 2 (encodeFields v)) ++
    [.optionalBool 3 support]

/-- `FreezeBalanceV2Contract` and `UnfreezeBalanceV2Contract`. -/
def balanceV2Contract (ownerAddress : List UInt8) (balance resource : Option ℕ) : List Write :=
  [.optionalBytes 1 (some ownerAddress), .optionalU64 2 balance, .optionalU64 3 resource]

/-- `OwnerContract`. -/
def ownerContract (ownerAddress : List UInt8) : List Write :=
  [.optionalBytes 1 (some ownerAddress)]

/-- `AnyParameter`. -/
def anyParameter (typeUrl : String) (value : List UInt8) : List Write :=
  [.optionalString 1 (some typeUrl), .optionalBytes 2 (some value)]

/-- `ContractEnvelope`. -/
def contractEnvelope (contractType : ℕ) (parameter : List Write) : List Write :=
  [.optionalU64 1 (some contractType), .optionalMessage 2 (some (encodeFields parameter))]

/-- `RawData`. -/
def rawData (refBlockBytes refBlockHash : List UInt8) (expiration : Option ℕ)
    (data : Option (List UInt8)) (contracts : List (List Write)) (timestamp feeLimit : Option ℕ) :
    List Write :=
  [.optionalBytes 1 (some refBlockBytes), .optionalBytes 4 (some refBlockHash),
      .optionalU64 8 expiration, .optionalBytes 10 data] ++
    (contracts.map fun c => .message 11 (encodeFields c)) ++
    [.optionalU64 14 timestamp, .optionalU64 18 feeLimit]

end Message

/-- `From<&TronContractVote> for Vote`. -/
def TronContractVote.message (vote : TronContractVote) : List Write :=
  Message.vote vote.address.asBytes (positive vote.count)

/-- `contract_value`, before it is encoded. -/
def TronContract.message : TronContract → List Write
  | transfer owner recipient amount =>
    Message.transferContract owner.asBytes recipient.asBytes (positive amount)
  | triggerSmart owner contract data callValue callTokenValue tokenId =>
    Message.triggerSmartContract owner.asBytes contract.asBytes
      ((positiveOnly callValue).map UInt64.toNat) data
      ((positiveOnly callTokenValue).map UInt64.toNat) ((positiveOnly tokenId).map UInt64.toNat)
  | voteWitness owner votes support =>
    Message.voteWitnessContract owner.asBytes (votes.map TronContractVote.message)
      (if support then some true else none)
  | freezeBalanceV2 owner frozenBalance resource =>
    Message.balanceV2Contract owner.asBytes (positive frozenBalance) (positive resource.toU64)
  | unfreezeBalanceV2 owner unfreezeBalance resource =>
    Message.balanceV2Contract owner.asBytes (positive unfreezeBalance) (positive resource.toU64)
  | withdrawBalance owner | withdrawExpireUnfreeze owner => Message.ownerContract owner.asBytes

/-- `From<&TronContract> for ContractEnvelope`. -/
def TronContract.envelope (contract : TronContract) : List Write :=
  Message.contractEnvelope contract.kind.id
    (Message.anyParameter contract.kind.typeUrl (encodeFields contract.message))

/-! ## Raw data of the wallet -/

/-- `TronRawData`. -/
structure TronRawData where
  refBlockBytes : List UInt8
  refBlockHash : List UInt8
  expiration : UInt64
  data : Option (List UInt8)
  contract : TronContract
  timestamp : UInt64
  feeLimit : UInt64

namespace TronRawData

/-- The message of `encode`. -/
def message (raw : TronRawData) : List Write :=
  Message.rawData raw.refBlockBytes raw.refBlockHash (positive raw.expiration) raw.data
    [raw.contract.envelope] (positive raw.timestamp) (positive raw.feeLimit)

/-- `encode`. -/
def encode (raw : TronRawData) : List UInt8 := encodeFields raw.message

/-- `json`, serialized. -/
def json (raw : TronRawData) : Json :=
  .obj ([("contract", .arr [raw.contract.json]), ("expiration", number raw.expiration)] ++
    (optionalEntry "fee_limit" ((if 0 < raw.feeLimit then some raw.feeLimit else none).map number) ++
    ([("ref_block_bytes", .str (encodeHex raw.refBlockBytes)),
      ("ref_block_hash", .str (encodeHex raw.refBlockHash))] ++
    (optionalEntry "data" (raw.data.map fun data => .str (encodeHex data)) ++
    [("timestamp", number raw.timestamp)]))))

end TronRawData

/-! ## Documents -/

section Documents

open Serde

variable (lib : TronLib)

/-- `RawContractJson`, with the value of its parameter. -/
structure RawContractJson where
  contractType : TronContractType
  value : Json

/-- `RawParameterJson::deserialize`. -/
def deserializeParameter : Reader Json := fun j => do
  let fs ← fields 1 j
  fs.required value 0 "value"

/-- `RawContractJson::deserialize`. -/
def RawContractJson.deserialize : Reader RawContractJson := fun j => do
  let fs ← fields 2 j
  let contractType ← fs.required TronContractType.deserialize 0 "type"
  let value ← fs.required deserializeParameter 1 "parameter"
  .ok ⟨contractType, value⟩

/-- `RawDataJson`. -/
structure RawDataJson where
  contract : List RawContractJson
  expiration : UInt64
  refBlockBytes : List UInt8
  refBlockHash : List UInt8
  timestamp : UInt64
  feeLimit : Option UInt64
  data : Option (List UInt8)

namespace RawDataJson

/-- `deserialize`. -/
def deserialize : Reader RawDataJson := fun j => do
  let fs ← fields 7 j
  let contract ← fs.required (vec RawContractJson.deserialize) 0 "contract"
  let expiration ← fs.required u64 1 "expiration"
  let refBlockBytes ← fs.required hexBytes 2 "ref_block_bytes"
  let refBlockHash ← fs.required hexBytes 3 "ref_block_hash"
  let timestamp ← fs.required u64 4 "timestamp"
  let feeLimit ← fs.optional u64 5 "fee_limit"
  let data ← fs.orDefault hexBytesOption 6 "data" none
  .ok ⟨contract, expiration, refBlockBytes, refBlockHash, timestamp, feeLimit, data⟩

/-- The contracts of a document. -/
def contracts (raw : RawDataJson) : Except SignerError (List TronContract) :=
  tryMap (fun c => TronContract.fromJsonValue lib c.contractType c.value) raw.contract

/-- The message of `encode`, once the contracts are read. -/
def message (raw : RawDataJson) (contracts : List TronContract) : List Write :=
  Message.rawData raw.refBlockBytes raw.refBlockHash (positive raw.expiration) raw.data
    (contracts.map TronContract.envelope) (positive raw.timestamp)
    ((positiveOnly raw.feeLimit).map UInt64.toNat)

/-- `encode`. -/
def encode (raw : RawDataJson) : Except SignerError (List UInt8) := do
  let contracts ← raw.contracts lib
  .ok (encodeFields (raw.message contracts))

end RawDataJson

/-- `WalletConnectTransaction`, with the fields `hash` reads. -/
structure WalletConnectTransaction where
  rawData : Option Json
  rawDataHex : List UInt8
  transactionId : Option String
  /-- A vector has at most `isize::MAX` bytes. -/
  length_rawDataHex : rawDataHex.length < 2 ^ 63

/-- `str::eq_ignore_ascii_case`. -/
def eqIgnoreAsciiCase (a b : String) : Bool :=
  a.toList.map Char.toLower == b.toList.map Char.toLower

/-- `WalletConnectTransaction::hash`. -/
def WalletConnectTransaction.hash (t : WalletConnectTransaction) :
    Except SignerError (FixedBytes 32) := do
  let transactionHash := lib.sha256 t.rawDataHex
  let rawDataJson ← okOr t.rawData (.invalidInput "Missing raw_data")
  if t.transactionId.any fun id => !eqIgnoreAsciiCase id (encodeHex transactionHash.val) then
    .error (.invalidInput "transaction ID does not match hash of raw_data_hex")
  else do
    let raw ← orInvalid lib (RawDataJson.deserialize rawDataJson)
    let encoded ← raw.encode lib
    if encoded ≠ t.rawDataHex then .error (.invalidInput "raw_data does not match raw_data_hex")
    else .ok transactionHash

end Documents

/-! ## The document of raw data -/

section RoundTrip

open Serde

variable (lib : TronLib)

lemma RawContractJson.deserialize_json (contract : TronContract) :
    RawContractJson.deserialize contract.json = .ok ⟨contract.kind, contract.valueJson⟩ := by
  have hvalue : deserializeParameter (.obj [("type_url", .str contract.kind.typeUrl),
      ("value", contract.valueJson)]) = .ok contract.valueJson := by
    refine bind_eq_ok_iff.mpr ⟨.named _, rfl, ?_⟩
    exact Fields.required_named rfl rfl
  refine bind_eq_ok_iff.mpr ⟨.named _, rfl, ?_⟩
  refine bind_eq_ok_iff.mpr ⟨contract.kind,
    Fields.required_named rfl (TronContractType.deserialize_serialize _), ?_⟩
  exact bind_eq_ok_iff.mpr ⟨contract.valueJson, Fields.required_named rfl hvalue, rfl⟩

/-- Leaving out the zeros that may be absent does not change the bytes. -/
lemma TronContract.envelope_normalized (contract : TronContract) :
    contract.normalized.envelope = contract.envelope := by
  cases contract <;> simp [TronContract.normalized, TronContract.envelope, TronContract.message,
    TronContract.kind]

namespace TronRawData

variable (raw : TronRawData)

/-- What the document of raw data says. -/
def document : RawDataJson where
  contract := [⟨raw.contract.kind, raw.contract.valueJson⟩]
  expiration := raw.expiration
  refBlockBytes := raw.refBlockBytes
  refBlockHash := raw.refBlockHash
  timestamp := raw.timestamp
  feeLimit := if 0 < raw.feeLimit then some raw.feeLimit else none
  data := raw.data

/-- **The document of raw data is read.** -/
theorem deserialize_json : RawDataJson.deserialize raw.json = .ok raw.document := by
  have hcontract : vec RawContractJson.deserialize (.arr [raw.contract.json]) =
      .ok raw.document.contract := by
    refine tryMap_eq_ok_iff.mpr ?_
    exact .cons (RawContractJson.deserialize_json raw.contract) .nil
  refine bind_eq_ok_iff.mpr ⟨.named _, rfl, ?_⟩
  refine bind_eq_ok_iff.mpr ⟨_, Fields.required_named rfl hcontract, ?_⟩
  refine bind_eq_ok_iff.mpr ⟨raw.expiration, Fields.required_named rfl (u64_number _), ?_⟩
  refine bind_eq_ok_iff.mpr ⟨raw.refBlockBytes,
    Fields.required_named ?_ (hexBytes_encodeHex _), ?_⟩
  · show Json.lookup (optionalEntry "fee_limit" _ ++ _) _ = _
    exact lookup_optionalEntry_of_ne (by decide) _ _
  refine bind_eq_ok_iff.mpr ⟨raw.refBlockHash,
    Fields.required_named ?_ (hexBytes_encodeHex _), ?_⟩
  · show Json.lookup (optionalEntry "fee_limit" _ ++ _) _ = _
    exact lookup_optionalEntry_of_ne (by decide) _ _
  refine bind_eq_ok_iff.mpr ⟨raw.timestamp, Fields.required_named ?_ (u64_number _), ?_⟩
  · show Json.lookup (optionalEntry "fee_limit" _ ++ _) _ = _
    rw [lookup_optionalEntry_of_ne (by decide)]
    exact lookup_optionalEntry_of_ne (by decide) _ _
  refine bind_eq_ok_iff.mpr ⟨raw.document.feeLimit,
    @Fields.optional_named _ _ _ _ _ number _ (fun _ => rfl) ?_, ?_⟩
  · refine lookup_optionalEntry_self _ ?_
    exact lookup_optionalEntry_of_ne (by decide) _ _
  refine bind_eq_ok_iff.mpr ⟨raw.data,
    Fields.orDefault_named_none hexBytesOption_encodeHex ?_, rfl⟩
  show Json.lookup (optionalEntry "fee_limit" _ ++ _) _ = _
  rw [lookup_optionalEntry_of_ne (by decide)]
  exact lookup_optionalEntry_self _ rfl

lemma contracts_document : raw.document.contracts lib = .ok [raw.contract.normalized] := by
  refine tryMap_eq_ok_iff.mpr ?_
  exact .cons (TronContract.fromJsonValue_valueJson lib raw.contract) .nil

/-- **The document of raw data says its bytes.** -/
theorem encode_document : raw.document.encode lib = .ok raw.encode := by
  refine bind_eq_ok_iff.mpr ⟨_, raw.contracts_document lib, ?_⟩
  have hfee : (positiveOnly raw.document.feeLimit).map UInt64.toNat = positive raw.feeLimit := by
    rw [document, positive]
    split
    · rename_i h
      simp [positiveOnly, Option.filter, h]
    · rfl
  rw [encode, message, RawDataJson.message, hfee, List.map_singleton,
    TronContract.envelope_normalized]
  rfl

end TronRawData

/-- **When a transaction is accepted**: its document is there, is read, and says the bytes. -/
theorem WalletConnectTransaction.hash_eq_ok_iff {t : WalletConnectTransaction}
    {digest : FixedBytes 32} :
    t.hash lib = .ok digest ↔
      (∃ j raw contracts, t.rawData = some j ∧ RawDataJson.deserialize j = .ok raw ∧
        raw.contracts lib = .ok contracts ∧ encodeFields (raw.message contracts) = t.rawDataHex) ∧
      (∀ id, t.transactionId = some id →
        eqIgnoreAsciiCase id (encodeHex (lib.sha256 t.rawDataHex).val) = true) ∧
      digest = lib.sha256 t.rawDataHex := by
  have hid : (t.transactionId.any fun id =>
      !eqIgnoreAsciiCase id (encodeHex (lib.sha256 t.rawDataHex).val)) = true ↔
      ¬∀ id, t.transactionId = some id →
        eqIgnoreAsciiCase id (encodeHex (lib.sha256 t.rawDataHex).val) = true := by
    cases t.transactionId <;> simp
  constructor
  · intro h
    obtain ⟨j, hj, h⟩ := bind_eq_ok_iff.mp h
    rw [guard_eq_ok_iff, hid, not_not] at h
    obtain ⟨hmatch, h⟩ := h
    obtain ⟨raw, hraw, h⟩ := bind_eq_ok_iff.mp h
    obtain ⟨encoded, hencoded, h⟩ := bind_eq_ok_iff.mp h
    obtain ⟨contracts, hcontracts, hencoded⟩ := bind_eq_ok_iff.mp hencoded
    rw [guard_eq_ok_iff, not_not] at h
    obtain ⟨heq, h⟩ := h
    cases h
    exact ⟨⟨j, raw, contracts, okOr_eq_ok_iff.mp hj, mapError_eq_ok_iff.mp hraw,
      hcontracts, (Except.ok.inj hencoded).trans heq⟩, hmatch, rfl⟩
  · rintro ⟨⟨j, raw, contracts, hj, hraw, hcontracts, hencoded⟩, hmatch, rfl⟩
    refine bind_eq_ok_iff.mpr ⟨j, okOr_eq_ok_iff.mpr hj, ?_⟩
    rw [guard_eq_ok_iff, hid, not_not]
    refine ⟨hmatch, bind_eq_ok_iff.mpr ⟨raw, mapError_eq_ok_iff.mpr hraw, ?_⟩⟩
    refine bind_eq_ok_iff.mpr ⟨encodeFields (raw.message contracts),
      bind_eq_ok_iff.mpr ⟨contracts, hcontracts, rfl⟩, ?_⟩
    rw [guard_eq_ok_iff, not_not]
    exact ⟨hencoded, rfl⟩

end RoundTrip

end GemCore.Tron
