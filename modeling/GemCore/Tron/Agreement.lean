import GemCore.Protobuf.Message
import GemCore.Tron.RawData

/-!
# The document shown and the bytes signed agree

A reference reader of the signed bytes, and what it reads: exactly what the document says, for the
wallet's own transactions and for every one of a WalletConnect peer that is accepted. The bytes
therefore determine what any accepted document with them says.

## Main definitions

* `ContractMeaning`, `RawMeaning` — what a transaction does, with zero for what is absent.
* `decodeRaw` — the reference reader of raw data.
* `denote` — what a document says.

## Main results

* `decodeContract_envelope` — a contract is read from its envelope.
* `decodeRaw_rawData` — raw data is read from its bytes.
* `shown_signed_agree` — the agreement of both forms.
-/

namespace GemCore.Tron

open Lib Protobuf

/-! ## What a transaction does -/

/-- What a contract does. -/
inductive ContractMeaning where
  | transfer (owner recipient : List UInt8) (amount : ℕ)
  | triggerSmart (owner contract data : List UInt8) (callValue callTokenValue tokenId : ℕ)
  | voteWitness (owner : List UInt8) (votes : List (List UInt8 × ℕ)) (support : Bool)
  | freezeBalanceV2 (owner : List UInt8) (frozenBalance resource : ℕ)
  | unfreezeBalanceV2 (owner : List UInt8) (unfreezeBalance resource : ℕ)
  | withdrawBalance (owner : List UInt8)
  | withdrawExpireUnfreeze (owner : List UInt8)

/-- What raw data says. -/
structure RawMeaning where
  refBlockBytes : List UInt8
  refBlockHash : List UInt8
  expiration : ℕ
  data : List UInt8
  contracts : List ContractMeaning
  timestamp : ℕ
  feeLimit : ℕ

/-- An amount that may be absent. -/
def amountOf (value : Option UInt64) : ℕ := (value.map UInt64.toNat).getD 0

/-- What a contract does. -/
def TronContract.meaning : TronContract → ContractMeaning
  | transfer owner recipient amount => .transfer owner.asBytes recipient.asBytes amount.toNat
  | triggerSmart owner contract data callValue callTokenValue tokenId =>
    .triggerSmart owner.asBytes contract.asBytes data (amountOf callValue)
      (amountOf callTokenValue) (amountOf tokenId)
  | voteWitness owner votes support =>
    .voteWitness owner.asBytes (votes.map fun vote => (vote.address.asBytes, vote.count.toNat))
      support
  | freezeBalanceV2 owner frozenBalance resource =>
    .freezeBalanceV2 owner.asBytes frozenBalance.toNat resource.toU64.toNat
  | unfreezeBalanceV2 owner unfreezeBalance resource =>
    .unfreezeBalanceV2 owner.asBytes unfreezeBalance.toNat resource.toU64.toNat
  | withdrawBalance owner => .withdrawBalance owner.asBytes
  | withdrawExpireUnfreeze owner => .withdrawExpireUnfreeze owner.asBytes

/-- What raw data says. -/
def TronRawData.meaning (raw : TronRawData) : RawMeaning where
  refBlockBytes := raw.refBlockBytes
  refBlockHash := raw.refBlockHash
  expiration := raw.expiration.toNat
  data := raw.data.getD []
  contracts := [raw.contract.meaning]
  timestamp := raw.timestamp.toNat
  feeLimit := raw.feeLimit.toNat

/-- What a document says, once its contracts are read. -/
def RawDataJson.meaning (raw : RawDataJson) (contracts : List TronContract) : RawMeaning where
  refBlockBytes := raw.refBlockBytes
  refBlockHash := raw.refBlockHash
  expiration := raw.expiration.toNat
  data := raw.data.getD []
  contracts := contracts.map TronContract.meaning
  timestamp := raw.timestamp.toNat
  feeLimit := amountOf raw.feeLimit

/-- What a document says, if it is one of raw data. -/
def denote (lib : TronLib) (j : Json) : Option RawMeaning := do
  let raw ← (RawDataJson.deserialize j).toOption
  let contracts ← (raw.contracts lib).toOption
  some (raw.meaning contracts)

/-! ## The reference reader -/

/-- A vote. -/
def decodeVote (data : List UInt8) : Option (List UInt8 × ℕ) := do
  let fs ← wireFields data
  some (bytesOf 1 fs, varintOf 2 fs)

/-- The value of a contract, by the type of the contract. -/
def decodeValue (contractType : TronContractType) (data : List UInt8) :
    Option ContractMeaning := do
  let fs ← wireFields data
  match contractType with
  | .transfer => some (.transfer (bytesOf 1 fs) (bytesOf 2 fs) (varintOf 3 fs))
  | .triggerSmart => some (.triggerSmart (bytesOf 1 fs) (bytesOf 2 fs) (bytesOf 4 fs)
      (varintOf 3 fs) (varintOf 5 fs) (varintOf 6 fs))
  | .voteWitness => do
    let votes ← (repeatedOf 2 fs).mapM decodeVote
    some (.voteWitness (bytesOf 1 fs) votes (varintOf 3 fs ≠ 0))
  | .freezeBalanceV2 => some (.freezeBalanceV2 (bytesOf 1 fs) (varintOf 2 fs) (varintOf 3 fs))
  | .unfreezeBalanceV2 => some (.unfreezeBalanceV2 (bytesOf 1 fs) (varintOf 2 fs) (varintOf 3 fs))
  | .withdrawBalance => some (.withdrawBalance (bytesOf 1 fs))
  | .withdrawExpireUnfreeze => some (.withdrawExpireUnfreeze (bytesOf 1 fs))
  | .transferAsset | .delegateResource | .unDelegateResource => none

/-- A contract: its type number, and a parameter whose type URL says the same type. -/
def decodeContract (data : List UInt8) : Option ContractMeaning := do
  let envelope ← wireFields data
  let contractType ← TronContractType.all.find? (·.id = varintOf 1 envelope)
  let parameter ← wireFields (messageOf 2 envelope)
  if bytesOf 1 parameter = contractType.typeUrl.toUTF8.data.toList then
    decodeValue contractType (bytesOf 2 parameter)
  else none

/-- Raw data. -/
def decodeRaw (data : List UInt8) : Option RawMeaning := do
  let fs ← wireFields data
  let contracts ← (repeatedOf 11 fs).mapM decodeContract
  some ⟨bytesOf 1 fs, bytesOf 4 fs, varintOf 8 fs, bytesOf 10 fs, contracts, varintOf 14 fs,
    varintOf 18 fs⟩

/-! ## Reading what is signed -/

section Values

@[simp] lemma positive_getD (value : UInt64) : (positive value).getD 0 = value.toNat := by
  rw [positive]
  split
  · rfl
  · rename_i h
    have hzero : value = 0 := by simpa using h
    rw [hzero]
    rfl

lemma positive_lt {value : UInt64} {n : ℕ} (h : positive value = some n) : n < 2 ^ 64 := by
  rw [positive] at h
  split at h
  · cases h
    exact value.toNat_lt
  · cases h

@[simp] lemma positiveOnly_getD (value : Option UInt64) :
    ((positiveOnly value).map UInt64.toNat).getD 0 = amountOf value := by
  cases value with
  | none => rfl
  | some n =>
    have hsome : (positiveOnly (some n)).map UInt64.toNat = positive n := by
      rw [positiveOnly, Option.filter, positive]
      split <;> simp_all
    rw [hsome, positive_getD]
    rfl

lemma positiveOnly_lt {value : Option UInt64} {n : ℕ}
    (h : (positiveOnly value).map UInt64.toNat = some n) : n < 2 ^ 64 := by
  obtain ⟨m, -, rfl⟩ := Option.map_eq_some_iff.mp h
  exact m.toNat_lt

@[simp] lemma getLast?_toList {α : Type} (o : Option α) : o.toList.getLast? = o := by
  cases o <;> rfl

@[simp] lemma present_getD (data : List UInt8) : (Write.bytes?.present data).getD [] = data := by
  rw [Write.bytes?.present]
  split <;> simp_all

/-- The numbers under a field number of what was written. -/
lemma varintOf_writes (number : ℕ) (writes : List Write) :
    varintOf number (writes.flatMap Write.written) =
      (((writes.filter (·.number = number)).filterMap Write.varint?).getLast?).getD 0 := by
  rw [varintOf, varintsOf_flatMap]

lemma bytesOf_writes (number : ℕ) (writes : List Write) :
    bytesOf number (writes.flatMap Write.written) =
      (((writes.filter (·.number = number)).filterMap Write.bytes?).getLast?).getD [] := by
  rw [bytesOf, bytesFieldsOf_flatMap]

/-- The values of a message in which each number stands once. -/
lemma filterMap_singleton {α β : Type} (f : α → Option β) (a : α) :
    [a].filterMap f = (f a).toList := by
  cases h : f a <;> simp [h]

lemma decodeVote_message {vote : TronContractVote}
    (hlen : (encodeFields vote.message).length < 2 ^ 64) :
    decodeVote (encodeFields vote.message) = some (vote.address.asBytes, vote.count.toNat) := by
  have hrange : ∀ w ∈ vote.message, w.InRange := by
    simp [TronContractVote.message, Message.vote, Write.inRange_iff, Write.number, Write.ValueFits]
    exact fun n => positive_lt
  rw [decodeVote, encodeFields, wireFields_written hrange hlen, Option.bind_eq_bind,
    Option.bind_some, bytesOf_writes, varintOf_writes]
  simp [TronContractVote.message, Message.vote, Write.number, filterMap_singleton, Write.bytes?,
    Write.varint?]

/-- An address in a message keeps it from being empty. -/
lemma bytes?_asBytes (number : ℕ) (address : TronAddress) :
    (Write.optionalBytes number (some address.asBytes)).bytes? = some address.asBytes := by
  rw [Write.bytes?, Option.bind_some, present_of_ne_nil address.asBytes_ne_nil]

lemma encodeFields_vote_ne_nil (vote : TronContractVote) : encodeFields vote.message ≠ [] :=
  flatMap_encode_ne_nil List.mem_cons_self (bytes?_asBytes 1 vote.address)

lemma bytes?_message (number : ℕ) (vote : TronContractVote) :
    (Write.message number (encodeFields vote.message)).bytes? =
      some (encodeFields vote.message) := by
  rw [Write.bytes?, present_of_ne_nil (encodeFields_vote_ne_nil vote)]

/-- The votes of a message. -/
lemma repeatedOf_votes (owner : TronAddress) (votes : List TronContractVote)
    (support : Option Bool) :
    repeatedOf 2 ((Message.voteWitnessContract owner.asBytes (votes.map TronContractVote.message)
      support).flatMap Write.written) = votes.map fun vote => encodeFields vote.message := by
  have hvotes := @filterMap_bytes?_messages 2 (votes.map fun vote => encodeFields vote.message) (by
    intro m hm
    obtain ⟨vote, -, rfl⟩ := List.mem_map.mp hm
    exact encodeFields_vote_ne_nil vote)
  rw [List.map_map] at hvotes
  rw [repeatedOf, bytesFieldsOf_flatMap]
  have hfilter : (Message.voteWitnessContract owner.asBytes (votes.map TronContractVote.message)
      support).filter (·.number = 2) =
        votes.map (Write.message 2 ∘ fun vote => encodeFields vote.message) := by
    simp [Message.voteWitnessContract, Write.number, List.filter_map, Function.comp_def]
  rw [hfilter, hvotes]

/-- The field numbers and values of a contract are those of the wire format. -/
theorem inRange_message (contract : TronContract) : ∀ w ∈ contract.message, w.InRange := by
  cases contract with
  | transfer owner recipient amount =>
    simp [TronContract.message, Message.transferContract, Write.inRange_iff, Write.number,
      Write.ValueFits]
    exact fun n => positive_lt
  | triggerSmart owner contract data callValue callTokenValue tokenId =>
    simp [TronContract.message, Message.triggerSmartContract, Write.inRange_iff, Write.number,
      Write.ValueFits]
    exact ⟨fun n _ => n.toNat_lt, fun n _ => n.toNat_lt, fun n _ => n.toNat_lt⟩
  | voteWitness owner votes support =>
    simp [TronContract.message, Message.voteWitnessContract, Write.inRange_iff, Write.number,
      Write.ValueFits, forall_and, or_imp]
  | freezeBalanceV2 owner frozenBalance resource
  | unfreezeBalanceV2 owner unfreezeBalance resource =>
    simp [TronContract.message, Message.balanceV2Contract, Write.inRange_iff, Write.number,
      Write.ValueFits]
    exact ⟨fun n => positive_lt, fun n => positive_lt⟩
  | withdrawBalance owner | withdrawExpireUnfreeze owner =>
    simp [TronContract.message, Message.ownerContract, Write.inRange_iff, Write.number,
      Write.ValueFits]

/-- **The value of a contract is read from its message.** -/
theorem decodeValue_message {contract : TronContract}
    (hlen : (encodeFields contract.message).length < 2 ^ 64) :
    decodeValue contract.kind (encodeFields contract.message) = some contract.meaning := by
  rw [decodeValue, encodeFields, wireFields_written (inRange_message contract) hlen,
    Option.bind_eq_bind, Option.bind_some]
  cases contract with
  | transfer owner recipient amount =>
    simp only [TronContract.kind, bytesOf_writes, varintOf_writes]
    simp [TronContract.message, TronContract.meaning, Message.transferContract, Write.number,
      filterMap_singleton, Write.bytes?, Write.varint?]
  | triggerSmart owner contract data callValue callTokenValue tokenId =>
    simp only [TronContract.kind, bytesOf_writes, varintOf_writes]
    simp [TronContract.message, TronContract.meaning, Message.triggerSmartContract, Write.number,
      filterMap_singleton, Write.bytes?, Write.varint?]
  | voteWitness owner votes support =>
    have hvotes : (votes.map fun vote => encodeFields vote.message).mapM decodeVote =
        some (votes.map fun vote => (vote.address.asBytes, vote.count.toNat)) := by
      refine mapM_eq_some_of_forall₂ (List.forall₂_map_left_iff.mpr ?_)
      refine List.forall₂_same.mpr fun vote hvote => decodeVote_message ?_
      refine lt_of_le_of_lt (length_le_of_mem ?_ (bytes?_message 2 vote)) hlen
      rw [TronContract.message, Message.voteWitnessContract, List.map_map]
      exact List.mem_append_left _ (List.mem_cons_of_mem _ (List.mem_map_of_mem hvote))
    simp only [TronContract.kind, bytesOf_writes, varintOf_writes, TronContract.message,
      repeatedOf_votes, hvotes, Option.bind_eq_bind, Option.bind_some]
    cases support <;> simp [TronContract.meaning, Message.voteWitnessContract, Write.number,
      List.filter_map, Function.comp_def, filterMap_singleton, Write.bytes?, Write.varint?]
  | freezeBalanceV2 owner frozenBalance resource
  | unfreezeBalanceV2 owner unfreezeBalance resource =>
    simp only [TronContract.kind, bytesOf_writes, varintOf_writes]
    simp [TronContract.message, TronContract.meaning, Message.balanceV2Contract, Write.number,
      filterMap_singleton, Write.bytes?, Write.varint?]
  | withdrawBalance owner | withdrawExpireUnfreeze owner =>
    simp only [TronContract.kind, bytesOf_writes]
    simp [TronContract.message, TronContract.meaning, Message.ownerContract, Write.number,
      filterMap_singleton, Write.bytes?]

/-- The bytes of a message with an address are not empty. -/
lemma encodeFields_message_ne_nil (contract : TronContract) :
    encodeFields contract.message ≠ [] := by
  cases contract <;>
    exact flatMap_encode_ne_nil List.mem_cons_self (bytes?_asBytes 1 _)

lemma find?_id (kind : TronContractType) :
    TronContractType.all.find? (·.id = kind.id) = some kind := by
  cases kind <;> decide

lemma typeUrl_ne_nil (kind : TronContractType) : kind.typeUrl.toUTF8.data.toList ≠ [] := by
  cases kind <;> decide

lemma id_lt (kind : TronContractType) : kind.id < 2 ^ 64 := by
  cases kind <;> decide

/-- The parameter of a contract. -/
def parameterOf (contract : TronContract) : List Write :=
  Message.anyParameter contract.kind.typeUrl (encodeFields contract.message)

lemma bytes?_parameterOf (number : ℕ) (contract : TronContract) :
    (Write.optionalMessage number (some (encodeFields (parameterOf contract)))).bytes? =
      some (encodeFields (parameterOf contract)) := by
  have hurl : (Write.optionalString 1 (some contract.kind.typeUrl)).bytes? =
      some contract.kind.typeUrl.toUTF8.data.toList := by
    rw [Write.bytes?, Option.bind_some, present_of_ne_nil (typeUrl_ne_nil _)]
  have hne : encodeFields (parameterOf contract) ≠ [] :=
    flatMap_encode_ne_nil List.mem_cons_self hurl
  rw [Write.bytes?, Option.bind_some, present_of_ne_nil hne]

lemma bytes?_value (number : ℕ) (contract : TronContract) :
    (Write.optionalBytes number (some (encodeFields contract.message))).bytes? =
      some (encodeFields contract.message) := by
  rw [Write.bytes?, Option.bind_some, present_of_ne_nil (encodeFields_message_ne_nil contract)]

/-- **A contract is read from its envelope.**

**Proof sketch.** The envelope, the parameter in it and the value in that are read one after the
other; each is no longer than the message around it. -/
theorem decodeContract_envelope {contract : TronContract}
    (hlen : (encodeFields contract.envelope).length < 2 ^ 64) :
    decodeContract (encodeFields contract.envelope) = some contract.meaning := by
  have henvelope : ∀ w ∈ contract.envelope, w.InRange := by
    simp [TronContract.envelope, Message.contractEnvelope, Write.inRange_iff, Write.number,
      Write.ValueFits]
    exact id_lt contract.kind
  have hparameter : ∀ w ∈ parameterOf contract, w.InRange := by
    simp [parameterOf, Message.anyParameter, Write.inRange_iff, Write.number, Write.ValueFits]
  have hlenParameter : (encodeFields (parameterOf contract)).length < 2 ^ 64 := by
    refine lt_of_le_of_lt (length_le_of_mem ?_ (bytes?_parameterOf 2 contract)) hlen
    exact List.mem_cons_of_mem _ List.mem_cons_self
  have hlenValue : (encodeFields contract.message).length < 2 ^ 64 := by
    refine lt_of_le_of_lt (length_le_of_mem ?_ (bytes?_value 2 contract)) hlenParameter
    exact List.mem_cons_of_mem _ List.mem_cons_self
  have hid : varintOf 1 (contract.envelope.flatMap Write.written) = contract.kind.id := by
    rw [varintOf_writes]
    simp [TronContract.envelope, Message.contractEnvelope, Write.number, Write.varint?]
  have hmessage : messageOf 2 (contract.envelope.flatMap Write.written) =
      encodeFields (parameterOf contract) := by
    have hfilter : contract.envelope.filter (·.number = 2) =
        [Write.optionalMessage 2 (some (encodeFields (parameterOf contract)))] := by
      simp [TronContract.envelope, Message.contractEnvelope, Write.number, parameterOf]
    rw [messageOf, bytesFieldsOf_flatMap, hfilter, filterMap_singleton, bytes?_parameterOf]
    exact List.append_nil _
  have hurl : bytesOf 1 ((parameterOf contract).flatMap Write.written) =
      contract.kind.typeUrl.toUTF8.data.toList := by
    rw [bytesOf_writes]
    simp [parameterOf, Message.anyParameter, Write.number, filterMap_singleton, Write.bytes?]
  have hvalue : bytesOf 2 ((parameterOf contract).flatMap Write.written) =
      encodeFields contract.message := by
    rw [bytesOf_writes]
    simp [parameterOf, Message.anyParameter, Write.number, filterMap_singleton, Write.bytes?]
  simp only [decodeContract, Option.bind_eq_bind]
  rw [encodeFields, wireFields_written henvelope hlen, Option.bind_some, hid, find?_id,
    Option.bind_some, hmessage, encodeFields, wireFields_written hparameter hlenParameter,
    Option.bind_some, hurl, hvalue, if_pos rfl]
  exact decodeValue_message hlenValue

/-- The envelope of a contract is not empty. -/
lemma encodeFields_envelope_ne_nil (contract : TronContract) :
    encodeFields contract.envelope ≠ [] :=
  flatMap_encode_ne_nil (List.mem_cons_of_mem _ List.mem_cons_self)
    (bytes?_parameterOf 2 contract)

section RawData

variable {refBlockBytes refBlockHash : List UInt8} {expiration timestamp feeLimit : Option ℕ}
  {data : Option (List UInt8)} {contracts : List TronContract}

/-- The contracts of raw data. -/
lemma repeatedOf_contracts :
    repeatedOf 11 ((Message.rawData refBlockBytes refBlockHash expiration data
      (contracts.map TronContract.envelope) timestamp feeLimit).flatMap Write.written) =
        contracts.map fun contract => encodeFields contract.envelope := by
  have hcontracts := @filterMap_bytes?_messages 11
    (contracts.map fun contract => encodeFields contract.envelope) (by
      intro m hm
      obtain ⟨contract, -, rfl⟩ := List.mem_map.mp hm
      exact encodeFields_envelope_ne_nil contract)
  rw [List.map_map] at hcontracts
  have hfilter : (Message.rawData refBlockBytes refBlockHash expiration data
      (contracts.map TronContract.envelope) timestamp feeLimit).filter (·.number = 11) =
        contracts.map (Write.message 11 ∘ fun contract => encodeFields contract.envelope) := by
    simp [Message.rawData, Write.number, List.filter_map, Function.comp_def]
  rw [repeatedOf, bytesFieldsOf_flatMap, hfilter, hcontracts]

/-- **Raw data is read from its bytes.** -/
theorem decodeRaw_rawData (hexpiration : ∀ n, expiration = some n → n < 2 ^ 64)
    (htimestamp : ∀ n, timestamp = some n → n < 2 ^ 64)
    (hfeeLimit : ∀ n, feeLimit = some n → n < 2 ^ 64)
    (hlen : (encodeFields (Message.rawData refBlockBytes refBlockHash expiration data
      (contracts.map TronContract.envelope) timestamp feeLimit)).length < 2 ^ 64) :
    decodeRaw (encodeFields (Message.rawData refBlockBytes refBlockHash expiration data
      (contracts.map TronContract.envelope) timestamp feeLimit)) =
        some ⟨refBlockBytes, refBlockHash, expiration.getD 0, data.getD [],
          contracts.map TronContract.meaning, timestamp.getD 0, feeLimit.getD 0⟩ := by
  have hrange : ∀ w ∈ Message.rawData refBlockBytes refBlockHash expiration data
      (contracts.map TronContract.envelope) timestamp feeLimit, w.InRange := by
    simp [Message.rawData, Write.inRange_iff, Write.number, Write.ValueFits, forall_and, or_imp]
    exact ⟨hexpiration, htimestamp, hfeeLimit⟩
  have hcontracts : (contracts.map fun contract => encodeFields contract.envelope).mapM
      decodeContract = some (contracts.map TronContract.meaning) := by
    refine mapM_eq_some_of_forall₂ (List.forall₂_map_left_iff.mpr ?_)
    refine List.forall₂_same.mpr fun contract hcontract => decodeContract_envelope ?_
    have hbytes : (Write.message 11 (encodeFields contract.envelope)).bytes? =
        some (encodeFields contract.envelope) :=
      present_of_ne_nil (encodeFields_envelope_ne_nil contract)
    refine lt_of_le_of_lt (length_le_of_mem ?_ hbytes) hlen
    rw [Message.rawData, List.map_map]
    exact List.mem_append_left _ (List.mem_append_right _ (List.mem_map_of_mem hcontract))
  have hdata : (data.bind Write.bytes?.present).getD [] = data.getD [] := by
    cases data with
    | none => rfl
    | some data => exact present_getD data
  simp only [decodeRaw, Option.bind_eq_bind]
  rw [encodeFields, wireFields_written hrange hlen, Option.bind_some, repeatedOf_contracts,
    hcontracts, Option.bind_some]
  simp only [bytesOf_writes, varintOf_writes]
  simp [Message.rawData, Write.number, List.filter_map, Function.comp_def, filterMap_singleton,
    Write.bytes?, Write.varint?, hdata]

end RawData

end Values

/-! ## Agreement -/

section Agreement

variable (lib : TronLib)

/-- The signed bytes of the wallet's own raw data. -/
lemma decodeRaw_encode {raw : TronRawData} (hlen : raw.encode.length < 2 ^ 64) :
    decodeRaw raw.encode = some raw.meaning := by
  have hread := @decodeRaw_rawData raw.refBlockBytes raw.refBlockHash (positive raw.expiration)
    (positive raw.timestamp) (positive raw.feeLimit) raw.data [raw.contract]
    (fun _ => positive_lt) (fun _ => positive_lt) (fun _ => positive_lt) hlen
  rw [positive_getD, positive_getD, positive_getD] at hread
  exact hread

/-- The signed bytes of a document. -/
lemma decodeRaw_message {raw : RawDataJson} {contracts : List TronContract}
    (hlen : (encodeFields (raw.message contracts)).length < 2 ^ 64) :
    decodeRaw (encodeFields (raw.message contracts)) = some (raw.meaning contracts) := by
  have hread := decodeRaw_rawData (fun _ => positive_lt) (fun _ => positive_lt)
    (fun _ => positiveOnly_lt) hlen
  rw [positive_getD, positive_getD, positiveOnly_getD] at hread
  exact hread

/-- An accepted transaction: its document says what its bytes do. -/
lemma decodeRaw_of_hash {t : WalletConnectTransaction} {digest : FixedBytes 32}
    (h : t.hash lib = .ok digest) : ∃ j meaning, t.rawData = some j ∧
      denote lib j = some meaning ∧ decodeRaw t.rawDataHex = some meaning := by
  obtain ⟨⟨j, raw, contracts, hj, hraw, hcontracts, hencoded⟩, -, -⟩ :=
    (WalletConnectTransaction.hash_eq_ok_iff lib).mp h
  have hlen : (encodeFields (raw.message contracts)).length < 2 ^ 64 := by
    rw [hencoded]
    exact t.length_rawDataHex.trans (by norm_num)
  refine ⟨j, raw.meaning contracts, hj, ?_, ?_⟩
  · simp [denote, hraw, hcontracts, Except.toOption]
  · rw [← hencoded]
    exact decodeRaw_message hlen

/-- A transaction of the wallet's own raw data is accepted. -/
lemma hash_own (raw : TronRawData) (h : raw.encode.length < 2 ^ 63) :
    WalletConnectTransaction.hash lib ⟨some raw.json, raw.encode, none, h⟩ =
      .ok (lib.sha256 raw.encode) := by
  simp [WalletConnectTransaction.hash, okOr, orInvalid, raw.deserialize_json, raw.encode_document lib,
    Except.mapError, bind, Except.bind]

/-- **What is shown and what is signed agree.** The document of the wallet's own raw data is read
and says its bytes; these bytes are read back as the raw data; the document of an accepted
transaction says what its bytes do, and two accepted transactions with the same bytes have
documents that say the same.

**Proof sketch.** The reader of documents inverts the writer of them up to zeros that are left out
of the bytes anyway. A reference reader inverts the writer of the bytes, message by message, so
that the bytes determine what every document that says them means. -/
theorem shown_signed_agree :
    (∀ raw : TronRawData, ∃ document, RawDataJson.deserialize raw.json = .ok document ∧
      document.encode lib = .ok raw.encode) ∧
    (∀ raw : TronRawData, raw.encode.length < 2 ^ 64 →
      decodeRaw raw.encode = some raw.meaning) ∧
    (∀ (t : WalletConnectTransaction) (digest : FixedBytes 32), t.hash lib = .ok digest →
      ∃ j meaning, t.rawData = some j ∧ denote lib j = some meaning ∧
        decodeRaw t.rawDataHex = some meaning) ∧
    ∀ (t t' : WalletConnectTransaction) (digest digest' : FixedBytes 32),
      t.hash lib = .ok digest → t'.hash lib = .ok digest' → t.rawDataHex = t'.rawDataHex →
      ∃ j j' meaning, t.rawData = some j ∧ t'.rawData = some j' ∧
        denote lib j = some meaning ∧ denote lib j' = some meaning := by
  refine ⟨fun raw => ⟨raw.document, raw.deserialize_json, raw.encode_document lib⟩,
    fun raw => decodeRaw_encode, fun t digest => decodeRaw_of_hash lib, ?_⟩
  intro t t' digest digest' ht ht' hbytes
  obtain ⟨j, meaning, hj, hdenote, hread⟩ := decodeRaw_of_hash lib ht
  obtain ⟨j', meaning', hj', hdenote', hread'⟩ := decodeRaw_of_hash lib ht'
  rw [← hbytes, hread, Option.some.injEq] at hread'
  exact ⟨j, j', meaning, hj, hj', hdenote, hread' ▸ hdenote'⟩

end Agreement

end GemCore.Tron
