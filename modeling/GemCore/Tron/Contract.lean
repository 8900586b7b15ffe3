import GemCore.Primitives.Base58
import GemCore.Primitives.Serde
import GemCore.Primitives.SignerError

/-!
# Tron contracts and their JSON form

The seven contracts the signer knows, the JSON object each is shown as, and the reader that takes
such an object back (`gem_tron/src/models/signing/contract.rs`, `models/contract_type.rs`,
`address/mod.rs`). Addresses are read from base58 or hex, and base58 comes first.

## Main definitions

* `TronAddress.fromHexOrBase58` — an address from either text.
* `TronContract.valueJson` — the object a contract is shown as.
* `TronContract.fromJsonValue` — the contract an object says.

## Main results

* `TronAddress.fromHexOrBase58_encodeHex` — the hex text of an address is no base58 text of another
  one.
* `TronContract.fromJsonValue_valueJson` — a contract is read back from the object it is shown as,
  up to amounts that are zero.
-/

namespace GemCore.Tron

open Lib

open Keystore (encodeHex)

/-- The code outside the repository that signing uses. -/
structure TronLib where
  sha256 : List UInt8 → FixedBytes 32
  /-- `Display` of `serde_json::Error`. -/
  serdeText : Serde.Error → String

/-! ## Addresses -/

/-- `ADDRESS_PREFIX`. -/
def addressPrefix : UInt8 := 0x41

/-- `ADDRESS_LEN`. -/
def addressLen : ℕ := 20

/-- `PREFIXED_ADDRESS_LEN`. -/
def prefixedAddressLen : ℕ := addressLen + 1

/-- `TronAddress`: every constructor puts the same byte in front of an account id. -/
structure TronAddress where
  accountId : FixedBytes addressLen

namespace TronAddress

/-- `as_bytes`. -/
def asBytes (address : TronAddress) : List UInt8 := addressPrefix :: address.accountId.val

/-- `From<[u8; 20]>`, of bytes that have to have this length. -/
def fromAccountId (bytes : List UInt8) : Option TronAddress :=
  if h : bytes.length = addressLen then some ⟨⟨bytes, h⟩⟩ else none

/-- `from_hex`. -/
def fromHex (hexValue : String) : Option TronAddress := do
  let bytes ← decodeHex hexValue
  if bytes.length = prefixedAddressLen ∧ bytes.head? = some addressPrefix then
    fromAccountId (bytes.drop 1)
  else if bytes.length = addressLen then fromAccountId bytes
  else none

/-- The payload of a base58 text without the byte in front. -/
def stripAddressPrefix : List UInt8 → List UInt8
  | [] => []
  | first :: payload => if first = addressPrefix then payload else first :: payload

/-- `try_parse`. -/
def tryParse (lib : TronLib) (address : String) : Option TronAddress := do
  let decoded ← Base58.decodeCheck (fun bytes => (lib.sha256 bytes).val) address
  fromAccountId (stripAddressPrefix decoded)

/-- `from_hex_or_base58`. -/
def fromHexOrBase58 (lib : TronLib) (value : String) : Option TronAddress :=
  (tryParse lib value).or (fromHex value)

/-- `hex_or_base58::serialize`. -/
def serialize (address : TronAddress) : Json := .str (encodeHex address.asBytes)

/-- `hex_or_base58::deserialize`. -/
def deserialize (lib : TronLib) : Serde.Reader TronAddress := fun j => do
  let value ← Serde.string j
  okOr (fromHexOrBase58 lib value) (.custom "invalid Tron address")

variable (lib : TronLib) (address : TronAddress)

@[simp] lemma length_asBytes : address.asBytes.length = prefixedAddressLen := by
  rw [asBytes, List.length_cons, address.accountId.property, prefixedAddressLen]

lemma asBytes_ne_nil : address.asBytes ≠ [] := List.cons_ne_nil _ _

lemma fromAccountId_eq : fromAccountId address.accountId.val = some address := by
  rw [fromAccountId, dif_pos address.accountId.property]

lemma fromHex_encodeHex : fromHex (encodeHex address.asBytes) = some address := by
  rw [fromHex, Serde.decodeHex_encodeHex]
  show (if _ then _ else _) = _
  rw [if_pos ⟨address.length_asBytes, rfl⟩]
  exact address.fromAccountId_eq

/-- The hex text of an address starts with the digits of its first byte. -/
lemma toList_encodeHex : ∃ rest, (encodeHex address.asBytes).toList = '4' :: rest ∧
    rest.length = 41 := by
  have hlen : (encodeHex address.asBytes).toList.length = 42 := by
    rw [Keystore.length_encodeHex, length_asBytes, prefixedAddressLen, addressLen]
  have hcons : ∃ rest, (encodeHex address.asBytes).toList = '4' :: rest := by
    rw [encodeHex, String.toList_ofList]
    exact ⟨_, rfl⟩
  obtain ⟨rest, hrest⟩ := hcons
  refine ⟨rest, hrest, ?_⟩
  rw [hrest, List.length_cons] at hlen
  omega

/-- **The hex text of an address is not read as base58**: its first digit alone makes the number
longer than any address.

**Proof sketch.** The digit `4` has the value 3 and 41 digits follow, so that the number is at
least `256 ^ 30`; the payload then has 27 bytes or more, and an address has 21 at most. -/
theorem tryParse_encodeHex : tryParse lib (encodeHex address.asBytes) = none := by
  rw [tryParse]
  by_contra hsome
  obtain ⟨parsed, hparsed⟩ := Option.ne_none_iff_exists'.mp hsome
  obtain ⟨payload, hpayload, hparsed⟩ := Option.bind_eq_some_iff.mp hparsed
  obtain ⟨rest, hrest, hlen⟩ := address.toList_encodeHex
  have htext : encodeHex address.asBytes = String.ofList ('4' :: rest) := by
    rw [← hrest, String.ofList_toList]
  rw [htext] at hpayload
  have hlong : 30 < payload.length + Base58.checksumLength :=
    Base58.le_length_of_decodeCheck (show Base58.digit '4' = some 3 by decide)
      (by rw [hlen]; norm_num) hpayload
  have hshort : (stripAddressPrefix payload).length = addressLen := by
    rw [fromAccountId] at hparsed
    split at hparsed
    · assumption
    · cases hparsed
  have hstrip : payload.length ≤ (stripAddressPrefix payload).length + 1 := by
    cases payload with
    | nil => exact Nat.zero_le _
    | cons first payload =>
      rw [stripAddressPrefix]
      split <;> simp
  rw [addressLen] at hshort
  rw [Base58.checksumLength] at hlong
  omega

/-- **An address is read back from its hex text.** -/
theorem fromHexOrBase58_encodeHex :
    fromHexOrBase58 lib (encodeHex address.asBytes) = some address := by
  rw [fromHexOrBase58, tryParse_encodeHex, fromHex_encodeHex]
  rfl

@[simp] lemma deserialize_serialize : deserialize lib address.serialize = .ok address := by
  show okOr (fromHexOrBase58 lib (encodeHex address.asBytes)) _ = _
  rw [fromHexOrBase58_encodeHex, okOr_some]

end TronAddress

/-! ## Contracts -/

/-- `TronContractType`. -/
inductive TronContractType where
  | transfer
  | transferAsset
  | voteWitness
  | withdrawBalance
  | triggerSmart
  | freezeBalanceV2
  | unfreezeBalanceV2
  | withdrawExpireUnfreeze
  | delegateResource
  | unDelegateResource
  deriving DecidableEq

namespace TronContractType

/-- Every contract type, in the order of the source. -/
def all : List TronContractType :=
  [transfer, transferAsset, voteWitness, withdrawBalance, triggerSmart, freezeBalanceV2,
    unfreezeBalanceV2, withdrawExpireUnfreeze, delegateResource, unDelegateResource]

/-- `id`. -/
def id : TronContractType → ℕ
  | transfer => 1
  | transferAsset => 2
  | voteWitness => 4
  | withdrawBalance => 13
  | triggerSmart => 31
  | freezeBalanceV2 => 54
  | unfreezeBalanceV2 => 55
  | withdrawExpireUnfreeze => 56
  | delegateResource => 57
  | unDelegateResource => 58

/-- `Display`. -/
def name : TronContractType → String
  | transfer => "TransferContract"
  | transferAsset => "TransferAssetContract"
  | voteWitness => "VoteWitnessContract"
  | withdrawBalance => "WithdrawBalanceContract"
  | triggerSmart => "TriggerSmartContract"
  | freezeBalanceV2 => "FreezeBalanceV2Contract"
  | unfreezeBalanceV2 => "UnfreezeBalanceV2Contract"
  | withdrawExpireUnfreeze => "WithdrawExpireUnfreezeContract"
  | delegateResource => "DelegateResourceContract"
  | unDelegateResource => "UnDelegateResourceContract"

/-- `TYPE_URL_PREFIX`. -/
def typeUrlPrefix : String := "type.googleapis.com/protocol."

/-- `type_url`. -/
def typeUrl (t : TronContractType) : String := typeUrlPrefix ++ t.name

/-- `FromStr`. -/
def fromStr (value : String) : Option TronContractType := all.find? (·.name = value)

/-- `Serialize`. -/
def serialize (t : TronContractType) : Json := .str t.name

/-- `Deserialize`. -/
def deserialize : Serde.Reader TronContractType := fun j => do
  let value ← Serde.string j
  okOr (fromStr value) (.custom s!"unsupported Tron contract type: {value}")

@[simp] lemma deserialize_serialize (t : TronContractType) :
    deserialize t.serialize = .ok t := by
  cases t <;> decide

end TronContractType

/-- `TronResource`. -/
inductive TronResource where
  | bandwidth
  | energy

namespace TronResource

/-- `From<TronResource> for u64`. -/
def toU64 : TronResource → UInt64
  | bandwidth => 0
  | energy => 1

/-- `Serialize`, in upper case. -/
def serialize : TronResource → Json
  | bandwidth => .str "BANDWIDTH"
  | energy => .str "ENERGY"

/-- The variant with a name. -/
def fromVariant (name : String) : Except Serde.Error TronResource :=
  if name = "BANDWIDTH" then .ok bandwidth
  else if name = "ENERGY" then .ok energy
  else .error (.unknownVariant name)

/-- `Deserialize`: a variant is a text, or an object with the one entry `null`. -/
def deserialize : Serde.Reader TronResource
  | .str name => fromVariant name
  | .obj [(name, .null)] => fromVariant name
  | _ => .error .invalidType

@[simp] lemma deserialize_serialize (r : TronResource) : deserialize r.serialize = .ok r := by
  cases r <;> rfl

end TronResource

/-- `TronContractVote`. -/
structure TronContractVote where
  address : TronAddress
  count : UInt64

/-- `TronContract`. -/
inductive TronContract where
  | transfer (owner recipient : TronAddress) (amount : UInt64)
  | triggerSmart (owner contract : TronAddress) (data : List UInt8)
      (callValue callTokenValue tokenId : Option UInt64)
  | voteWitness (owner : TronAddress) (votes : List TronContractVote) (support : Bool)
  | freezeBalanceV2 (owner : TronAddress) (frozenBalance : UInt64) (resource : TronResource)
  | unfreezeBalanceV2 (owner : TronAddress) (unfreezeBalance : UInt64) (resource : TronResource)
  | withdrawBalance (owner : TronAddress)
  | withdrawExpireUnfreeze (owner : TronAddress)

/-- `TronContract::kind`. -/
def TronContract.kind : TronContract → TronContractType
  | transfer .. => .transfer
  | triggerSmart .. => .triggerSmart
  | voteWitness .. => .voteWitness
  | freezeBalanceV2 .. => .freezeBalanceV2
  | unfreezeBalanceV2 .. => .unfreezeBalanceV2
  | withdrawBalance .. => .withdrawBalance
  | withdrawExpireUnfreeze .. => .withdrawExpireUnfreeze

/-! ## The objects contracts are shown as -/

/-- A `u64` as a value. -/
def number (n : UInt64) : Json := .num (.posInt n)

/-- An entry with `skip_serializing_if = "Option::is_none"`. -/
def optionalEntry (name : String) (value : Option Json) : List (String × Json) :=
  value.elim [] fun j => [(name, j)]

/-- `.filter(|value| *value > 0)`. -/
def positiveOnly (value : Option UInt64) : Option UInt64 := value.filter fun n => 0 < n

/-- `TransferContractValue`. -/
structure TransferContractValue where
  amount : UInt64
  ownerAddress : TronAddress
  toAddress : TronAddress

/-- `TriggerSmartContractValue`. -/
structure TriggerSmartContractValue where
  contractAddress : TronAddress
  data : List UInt8
  ownerAddress : TronAddress
  callValue : Option UInt64
  callTokenValue : Option UInt64
  tokenId : Option UInt64

/-- `VoteValue`. -/
structure VoteValue where
  voteAddress : TronAddress
  voteCount : UInt64

/-- `VoteWitnessContractValue`. -/
structure VoteWitnessContractValue where
  ownerAddress : TronAddress
  support : Bool
  votes : List VoteValue

/-- `FreezeBalanceV2ContractValue`. -/
structure FreezeBalanceV2ContractValue where
  frozenBalance : UInt64
  ownerAddress : TronAddress
  resource : TronResource

/-- `UnfreezeBalanceV2ContractValue`. -/
structure UnfreezeBalanceV2ContractValue where
  ownerAddress : TronAddress
  resource : TronResource
  unfreezeBalance : UInt64

/-- `OwnerContractValue`. -/
structure OwnerContractValue where
  ownerAddress : TronAddress

/-- `TransferContractValue::serialize`. -/
def TransferContractValue.serialize (v : TransferContractValue) : Json :=
  .obj [("amount", number v.amount), ("owner_address", v.ownerAddress.serialize),
    ("to_address", v.toAddress.serialize)]

/-- `TriggerSmartContractValue::serialize`. -/
def TriggerSmartContractValue.serialize (v : TriggerSmartContractValue) : Json :=
  .obj ([("contract_address", v.contractAddress.serialize), ("data", .str (encodeHex v.data)),
      ("owner_address", v.ownerAddress.serialize)] ++
    (optionalEntry "call_value" (v.callValue.map number) ++
    (optionalEntry "call_token_value" (v.callTokenValue.map number) ++
    optionalEntry "token_id" (v.tokenId.map number))))

/-- `VoteValue::serialize`. -/
def VoteValue.serialize (v : VoteValue) : Json :=
  .obj [("vote_address", v.voteAddress.serialize), ("vote_count", number v.voteCount)]

/-- `VoteWitnessContractValue::serialize`. -/
def VoteWitnessContractValue.serialize (v : VoteWitnessContractValue) : Json :=
  .obj [("owner_address", v.ownerAddress.serialize), ("support", .bool v.support),
    ("votes", .arr (v.votes.map VoteValue.serialize))]

/-- `FreezeBalanceV2ContractValue::serialize`. -/
def FreezeBalanceV2ContractValue.serialize (v : FreezeBalanceV2ContractValue) : Json :=
  .obj [("frozen_balance", number v.frozenBalance), ("owner_address", v.ownerAddress.serialize),
    ("resource", v.resource.serialize)]

/-- `UnfreezeBalanceV2ContractValue::serialize`. -/
def UnfreezeBalanceV2ContractValue.serialize (v : UnfreezeBalanceV2ContractValue) : Json :=
  .obj [("owner_address", v.ownerAddress.serialize), ("resource", v.resource.serialize),
    ("unfreeze_balance", number v.unfreezeBalance)]

/-- `OwnerContractValue::serialize`. -/
def OwnerContractValue.serialize (v : OwnerContractValue) : Json :=
  .obj [("owner_address", v.ownerAddress.serialize)]

/-- `TronContract::value_json`, serialized: the variants of `TronContractValueJson` are untagged. -/
def TronContract.valueJson : TronContract → Json
  | transfer owner recipient amount =>
    TransferContractValue.serialize ⟨amount, owner, recipient⟩
  | triggerSmart owner contract data callValue callTokenValue tokenId =>
    TriggerSmartContractValue.serialize ⟨contract, data, owner, positiveOnly callValue,
      positiveOnly callTokenValue, positiveOnly tokenId⟩
  | voteWitness owner votes support =>
    VoteWitnessContractValue.serialize ⟨owner, support,
      votes.map fun vote => ⟨vote.address, vote.count⟩⟩
  | freezeBalanceV2 owner frozenBalance resource =>
    FreezeBalanceV2ContractValue.serialize ⟨frozenBalance, owner, resource⟩
  | unfreezeBalanceV2 owner unfreezeBalance resource =>
    UnfreezeBalanceV2ContractValue.serialize ⟨owner, resource, unfreezeBalance⟩
  | withdrawBalance owner | withdrawExpireUnfreeze owner => OwnerContractValue.serialize ⟨owner⟩

/-- `TronContract::json`, serialized. -/
def TronContract.json (contract : TronContract) : Json :=
  .obj [("parameter", .obj [("type_url", .str contract.kind.typeUrl),
      ("value", contract.valueJson)]),
    ("type", contract.kind.serialize)]

/-! ## Reading the objects -/

section Reading

open Serde

variable (lib : TronLib)

/-- `TransferContractValue::deserialize`. -/
def TransferContractValue.deserialize : Reader TransferContractValue := fun j => do
  let fs ← fields 3 j
  let amount ← fs.required u64 0 "amount"
  let ownerAddress ← fs.required (TronAddress.deserialize lib) 1 "owner_address"
  let toAddress ← fs.required (TronAddress.deserialize lib) 2 "to_address"
  .ok ⟨amount, ownerAddress, toAddress⟩

/-- `TriggerSmartContractValue::deserialize`. -/
def TriggerSmartContractValue.deserialize : Reader TriggerSmartContractValue := fun j => do
  let fs ← fields 6 j
  let contractAddress ← fs.required (TronAddress.deserialize lib) 0 "contract_address"
  let data ← fs.orDefault hexBytes 1 "data" []
  let ownerAddress ← fs.required (TronAddress.deserialize lib) 2 "owner_address"
  let callValue ← fs.optional u64 3 "call_value"
  let callTokenValue ← fs.optional u64 4 "call_token_value"
  let tokenId ← fs.optional u64 5 "token_id"
  .ok ⟨contractAddress, data, ownerAddress, callValue, callTokenValue, tokenId⟩

/-- `VoteValue::deserialize`. -/
def VoteValue.deserialize : Reader VoteValue := fun j => do
  let fs ← fields 2 j
  let voteAddress ← fs.required (TronAddress.deserialize lib) 0 "vote_address"
  let voteCount ← fs.required u64 1 "vote_count"
  .ok ⟨voteAddress, voteCount⟩

/-- `VoteWitnessContractValue::deserialize`. -/
def VoteWitnessContractValue.deserialize : Reader VoteWitnessContractValue := fun j => do
  let fs ← fields 3 j
  let ownerAddress ← fs.required (TronAddress.deserialize lib) 0 "owner_address"
  let support ← fs.orDefault Serde.bool 1 "support" false
  let votes ← fs.orDefault (vec (VoteValue.deserialize lib)) 2 "votes" []
  .ok ⟨ownerAddress, support, votes⟩

/-- `FreezeBalanceV2ContractValue::deserialize`. -/
def FreezeBalanceV2ContractValue.deserialize : Reader FreezeBalanceV2ContractValue := fun j => do
  let fs ← fields 3 j
  let frozenBalance ← fs.required u64 0 "frozen_balance"
  let ownerAddress ← fs.required (TronAddress.deserialize lib) 1 "owner_address"
  let resource ← fs.orDefault TronResource.deserialize 2 "resource" .bandwidth
  .ok ⟨frozenBalance, ownerAddress, resource⟩

/-- `UnfreezeBalanceV2ContractValue::deserialize`. -/
def UnfreezeBalanceV2ContractValue.deserialize : Reader UnfreezeBalanceV2ContractValue :=
  fun j => do
    let fs ← fields 3 j
    let ownerAddress ← fs.required (TronAddress.deserialize lib) 0 "owner_address"
    let resource ← fs.orDefault TronResource.deserialize 1 "resource" .bandwidth
    let unfreezeBalance ← fs.required u64 2 "unfreeze_balance"
    .ok ⟨ownerAddress, resource, unfreezeBalance⟩

/-- `OwnerContractValue::deserialize`. -/
def OwnerContractValue.deserialize : Reader OwnerContractValue := fun j => do
  let fs ← fields 1 j
  let ownerAddress ← fs.required (TronAddress.deserialize lib) 0 "owner_address"
  .ok ⟨ownerAddress⟩

/-- `From<serde_json::Error> for SignerError`. -/
def orInvalid {α : Type} (x : Except Serde.Error α) : Except SignerError α :=
  x.mapError fun error => .invalidInput (lib.serdeText error)

/-- `TronContract::from_json_value`. -/
def TronContract.fromJsonValue (contractType : TronContractType) (value : Json) :
    Except SignerError TronContract :=
  match contractType with
  | .transfer => do
    let value ← orInvalid lib (TransferContractValue.deserialize lib value)
    .ok (transfer value.ownerAddress value.toAddress value.amount)
  | .triggerSmart => do
    let value ← orInvalid lib (TriggerSmartContractValue.deserialize lib value)
    .ok (triggerSmart value.ownerAddress value.contractAddress value.data
      (positiveOnly value.callValue) (positiveOnly value.callTokenValue)
      (positiveOnly value.tokenId))
  | .voteWitness => do
    let value ← orInvalid lib (VoteWitnessContractValue.deserialize lib value)
    .ok (voteWitness value.ownerAddress
      (value.votes.map fun vote => ⟨vote.voteAddress, vote.voteCount⟩) value.support)
  | .freezeBalanceV2 => do
    let value ← orInvalid lib (FreezeBalanceV2ContractValue.deserialize lib value)
    .ok (freezeBalanceV2 value.ownerAddress value.frozenBalance value.resource)
  | .unfreezeBalanceV2 => do
    let value ← orInvalid lib (UnfreezeBalanceV2ContractValue.deserialize lib value)
    .ok (unfreezeBalanceV2 value.ownerAddress value.unfreezeBalance value.resource)
  | .withdrawBalance => do
    let value ← orInvalid lib (OwnerContractValue.deserialize lib value)
    .ok (withdrawBalance value.ownerAddress)
  | .withdrawExpireUnfreeze => do
    let value ← orInvalid lib (OwnerContractValue.deserialize lib value)
    .ok (withdrawExpireUnfreeze value.ownerAddress)
  | .transferAsset | .delegateResource | .unDelegateResource =>
    .error (.invalidInput s!"unsupported Tron contract type: {contractType.name}")

end Reading

/-! ## Reading back what is shown -/

section RoundTrip

open Serde

variable (lib : TronLib)

@[simp] lemma u64_number (n : UInt64) : u64 (number n) = .ok n := rfl

/-- An entry that may be left out does not hide the others. -/
lemma lookup_optionalEntry_of_ne {name key : String} (h : key ≠ name) (value : Option Json)
    (rest : List (String × Json)) :
    Json.lookup (optionalEntry name value ++ rest) key = Json.lookup rest key := by
  cases value with
  | none => rfl
  | some j =>
    have hbeq : (key == name) = false := beq_false_of_ne h
    simp [optionalEntry, Json.lookup, List.lookup_cons, hbeq]

/-- An entry that may be left out is found if it is there. -/
lemma lookup_optionalEntry_self {name : String} (value : Option Json)
    {rest : List (String × Json)} (h : Json.lookup rest name = none) :
    Json.lookup (optionalEntry name value ++ rest) name = value := by
  cases value with
  | none => exact h
  | some j => simp [optionalEntry, Json.lookup]

lemma TransferContractValue.deserialize_serialize (v : TransferContractValue) :
    TransferContractValue.deserialize lib v.serialize = .ok v := by
  refine bind_eq_ok_iff.mpr ⟨.named _, rfl, ?_⟩
  refine bind_eq_ok_iff.mpr ⟨v.amount, Fields.required_named rfl (u64_number _), ?_⟩
  refine bind_eq_ok_iff.mpr ⟨v.ownerAddress,
    Fields.required_named rfl (TronAddress.deserialize_serialize lib _), ?_⟩
  exact bind_eq_ok_iff.mpr ⟨v.toAddress,
    Fields.required_named rfl (TronAddress.deserialize_serialize lib _), rfl⟩

lemma TriggerSmartContractValue.deserialize_serialize (v : TriggerSmartContractValue) :
    TriggerSmartContractValue.deserialize lib v.serialize = .ok v := by
  have hnumber : ∀ n, option u64 (number n) = .ok (some n) := fun _ => rfl
  have htokenId : Json.lookup (optionalEntry "token_id" (v.tokenId.map number)) "token_id" =
      v.tokenId.map number := by
    rw [← List.append_nil (optionalEntry _ _)]
    exact lookup_optionalEntry_self _ rfl
  have hothers : ∀ key, key ≠ "token_id" →
      Json.lookup (optionalEntry "token_id" (v.tokenId.map number)) key = none := by
    intro key hkey
    rw [← List.append_nil (optionalEntry _ _), lookup_optionalEntry_of_ne hkey]
    rfl
  refine bind_eq_ok_iff.mpr ⟨.named _, rfl, ?_⟩
  refine bind_eq_ok_iff.mpr ⟨v.contractAddress,
    Fields.required_named rfl (TronAddress.deserialize_serialize lib _), ?_⟩
  refine bind_eq_ok_iff.mpr ⟨v.data, Fields.orDefault_named rfl (hexBytes_encodeHex _), ?_⟩
  refine bind_eq_ok_iff.mpr ⟨v.ownerAddress,
    Fields.required_named rfl (TronAddress.deserialize_serialize lib _), ?_⟩
  refine bind_eq_ok_iff.mpr ⟨v.callValue, Fields.optional_named hnumber ?_, ?_⟩
  · refine lookup_optionalEntry_self _ ?_
    rw [lookup_optionalEntry_of_ne (by decide), hothers _ (by decide)]
  refine bind_eq_ok_iff.mpr ⟨v.callTokenValue, Fields.optional_named hnumber ?_, ?_⟩
  · show Json.lookup (optionalEntry "call_value" _ ++ _) _ = _
    rw [lookup_optionalEntry_of_ne (by decide)]
    exact lookup_optionalEntry_self _ (hothers _ (by decide))
  refine bind_eq_ok_iff.mpr ⟨v.tokenId, Fields.optional_named hnumber ?_, rfl⟩
  show Json.lookup (optionalEntry "call_value" _ ++ _) _ = _
  rw [lookup_optionalEntry_of_ne (by decide), lookup_optionalEntry_of_ne (by decide), htokenId]

lemma VoteValue.deserialize_serialize (v : VoteValue) :
    VoteValue.deserialize lib v.serialize = .ok v := by
  refine bind_eq_ok_iff.mpr ⟨.named _, rfl, ?_⟩
  refine bind_eq_ok_iff.mpr ⟨v.voteAddress,
    Fields.required_named rfl (TronAddress.deserialize_serialize lib _), ?_⟩
  exact bind_eq_ok_iff.mpr ⟨v.voteCount, Fields.required_named rfl (u64_number _), rfl⟩

lemma VoteWitnessContractValue.deserialize_serialize (v : VoteWitnessContractValue) :
    VoteWitnessContractValue.deserialize lib v.serialize = .ok v := by
  have hvotes : vec (VoteValue.deserialize lib) (.arr (v.votes.map VoteValue.serialize)) =
      .ok v.votes := by
    have hmap := tryMap_eq_ok_iff.mpr
      (List.forall₂_map_left_iff.mpr (List.forall₂_same.mpr fun vote (_ : vote ∈ v.votes) =>
        VoteValue.deserialize_serialize lib vote))
    exact hmap
  refine bind_eq_ok_iff.mpr ⟨.named _, rfl, ?_⟩
  refine bind_eq_ok_iff.mpr ⟨v.ownerAddress,
    Fields.required_named rfl (TronAddress.deserialize_serialize lib _), ?_⟩
  refine bind_eq_ok_iff.mpr ⟨v.support, Fields.orDefault_named rfl rfl, ?_⟩
  exact bind_eq_ok_iff.mpr ⟨v.votes, Fields.orDefault_named rfl hvotes, rfl⟩

lemma FreezeBalanceV2ContractValue.deserialize_serialize (v : FreezeBalanceV2ContractValue) :
    FreezeBalanceV2ContractValue.deserialize lib v.serialize = .ok v := by
  refine bind_eq_ok_iff.mpr ⟨.named _, rfl, ?_⟩
  refine bind_eq_ok_iff.mpr ⟨v.frozenBalance, Fields.required_named rfl (u64_number _), ?_⟩
  refine bind_eq_ok_iff.mpr ⟨v.ownerAddress,
    Fields.required_named rfl (TronAddress.deserialize_serialize lib _), ?_⟩
  exact bind_eq_ok_iff.mpr ⟨v.resource,
    Fields.orDefault_named rfl (TronResource.deserialize_serialize _), rfl⟩

lemma UnfreezeBalanceV2ContractValue.deserialize_serialize
    (v : UnfreezeBalanceV2ContractValue) :
    UnfreezeBalanceV2ContractValue.deserialize lib v.serialize = .ok v := by
  refine bind_eq_ok_iff.mpr ⟨.named _, rfl, ?_⟩
  refine bind_eq_ok_iff.mpr ⟨v.ownerAddress,
    Fields.required_named rfl (TronAddress.deserialize_serialize lib _), ?_⟩
  refine bind_eq_ok_iff.mpr ⟨v.resource,
    Fields.orDefault_named rfl (TronResource.deserialize_serialize _), ?_⟩
  exact bind_eq_ok_iff.mpr ⟨v.unfreezeBalance, Fields.required_named rfl (u64_number _), rfl⟩

lemma OwnerContractValue.deserialize_serialize (v : OwnerContractValue) :
    OwnerContractValue.deserialize lib v.serialize = .ok v := by
  refine bind_eq_ok_iff.mpr ⟨.named _, rfl, ?_⟩
  exact bind_eq_ok_iff.mpr ⟨v.ownerAddress,
    Fields.required_named rfl (TronAddress.deserialize_serialize lib _), rfl⟩

/-- A contract without the amounts that are zero where they may be absent. -/
def TronContract.normalized : TronContract → TronContract
  | triggerSmart owner contract data callValue callTokenValue tokenId =>
    triggerSmart owner contract data (positiveOnly callValue) (positiveOnly callTokenValue)
      (positiveOnly tokenId)
  | contract => contract

@[simp] lemma positiveOnly_positiveOnly (value : Option UInt64) :
    positiveOnly (positiveOnly value) = positiveOnly value := by
  rw [positiveOnly, positiveOnly, Option.filter_filter]
  simp

/-- **A contract is read back from the object it is shown as**, up to amounts that are zero. -/
theorem TronContract.fromJsonValue_valueJson (contract : TronContract) :
    fromJsonValue lib contract.kind contract.valueJson = .ok contract.normalized := by
  cases contract with
  | transfer owner recipient amount =>
    refine bind_eq_ok_iff.mpr ⟨⟨amount, owner, recipient⟩, ?_, rfl⟩
    rw [valueJson, TransferContractValue.deserialize_serialize, orInvalid, mapError_ok]
  | triggerSmart owner contract data callValue callTokenValue tokenId =>
    refine bind_eq_ok_iff.mpr ⟨⟨contract, data, owner, positiveOnly callValue,
      positiveOnly callTokenValue, positiveOnly tokenId⟩, ?_, ?_⟩
    · rw [valueJson, TriggerSmartContractValue.deserialize_serialize, orInvalid, mapError_ok]
    · simp [normalized]
  | voteWitness owner votes support =>
    refine bind_eq_ok_iff.mpr ⟨⟨owner, support,
      votes.map fun vote => ⟨vote.address, vote.count⟩⟩, ?_, ?_⟩
    · rw [valueJson, VoteWitnessContractValue.deserialize_serialize, orInvalid, mapError_ok]
    · rw [List.map_map]
      exact congrArg (fun votes => Except.ok (voteWitness owner votes support)) (List.map_id votes)
  | freezeBalanceV2 owner frozenBalance resource =>
    refine bind_eq_ok_iff.mpr ⟨⟨frozenBalance, owner, resource⟩, ?_, rfl⟩
    rw [valueJson, FreezeBalanceV2ContractValue.deserialize_serialize, orInvalid,
      mapError_ok]
  | unfreezeBalanceV2 owner unfreezeBalance resource =>
    refine bind_eq_ok_iff.mpr ⟨⟨owner, resource, unfreezeBalance⟩, ?_, rfl⟩
    rw [valueJson, UnfreezeBalanceV2ContractValue.deserialize_serialize, orInvalid,
      mapError_ok]
  | withdrawBalance owner | withdrawExpireUnfreeze owner =>
    refine bind_eq_ok_iff.mpr ⟨⟨owner⟩, ?_, rfl⟩
    rw [valueJson, OwnerContractValue.deserialize_serialize, orInvalid, mapError_ok]

end RoundTrip

end GemCore.Tron
