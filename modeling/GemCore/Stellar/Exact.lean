import Mathlib.Data.List.DropRight
import GemCore.Lib.Xdr
import GemCore.Stellar.Serialization

/-!
# The bytes of a Stellar transaction say what was requested

The transaction type of the Stellar network with a reader of its XDR form, and what this reader makes
of the bytes a wallet signs. Amounts and sequence numbers have a sign there and none in the wallet.

## Main definitions

* `Xdr.Transaction`, `Xdr.readTransaction` — the network's type and its reader.
* `view` — a transaction of the wallet as one of the network.
* `Exact` — the reader takes all bytes and finds the request.

## Main results

* `reads_encodeTransaction` — the reader finds the transaction that was encoded.
* `view_injective` — no two transactions look alike to the network.
* `exact_iff` — the bytes say what was requested exactly if the amount and the sequence number fit
  into 63 bits.
-/

namespace GemCore.Stellar

open Lib Xdr

/-! ## The network's type -/

namespace Xdr

/-- `MuxedAccount`. -/
inductive MuxedAccount where
  | ed25519 (key : FixedBytes 32)
  | muxed (id : ℕ) (key : FixedBytes 32)

/-- `Asset`, and `ChangeTrustAsset` without the shares of pools. -/
inductive Asset where
  | native
  | alphanum4 (code : FixedBytes 4) (issuer : FixedBytes 32)
  | alphanum12 (code : FixedBytes 12) (issuer : FixedBytes 32)

/-- `Memo`. -/
inductive Memo where
  | none
  | text (text : List UInt8)
  | id (id : ℕ)
  | hash (hash : FixedBytes 32)
  | retHash (hash : FixedBytes 32)

/-- `Preconditions`, up to those with time bounds. -/
inductive Preconditions where
  | none
  | time (minTime maxTime : ℕ)

/-- The body of an `Operation`, of the kinds a wallet signs. -/
inductive OperationBody where
  | createAccount (destination : FixedBytes 32) (startingBalance : ℤ)
  | payment (destination : MuxedAccount) (asset : Asset) (amount : ℤ)
  | changeTrust (line : Asset) (limit : ℤ)

/-- `Operation`. -/
structure Operation where
  sourceAccount : Option MuxedAccount
  body : OperationBody

/-- `Transaction`. -/
structure Transaction where
  sourceAccount : MuxedAccount
  fee : ℕ
  seqNum : ℤ
  cond : Preconditions
  memo : Memo
  operations : List Operation

/-- A reader of an `AccountID`. -/
def readAccountId : Reader (FixedBytes 32) := do
  let keyType ← uint32
  if keyType = 0 then fixedOpaque 32 else failure

/-- A reader of a `MuxedAccount`. -/
def readMuxedAccount : Reader MuxedAccount := do
  let keyType ← uint32
  if keyType = 0 then do
    let key ← fixedOpaque 32
    pure (.ed25519 key)
  else if keyType = 256 then do
    let id ← uint64
    let key ← fixedOpaque 32
    pure (.muxed id key)
  else failure

/-- A reader of an `Asset`. -/
def readAsset : Reader Asset := do
  let assetType ← uint32
  if assetType = 0 then pure .native
  else if assetType = 1 then do
    let code ← fixedOpaque 4
    let issuer ← readAccountId
    pure (.alphanum4 code issuer)
  else if assetType = 2 then do
    let code ← fixedOpaque 12
    let issuer ← readAccountId
    pure (.alphanum12 code issuer)
  else failure

/-- A reader of a `Memo`: a text has at most 28 bytes. -/
def readMemo : Reader Memo := do
  let memoType ← uint32
  if memoType = 0 then pure .none
  else if memoType = 1 then do
    let text ← varOpaque 28
    pure (.text text)
  else if memoType = 2 then do
    let id ← uint64
    pure (.id id)
  else if memoType = 3 then do
    let hash ← fixedOpaque 32
    pure (.hash hash)
  else if memoType = 4 then do
    let hash ← fixedOpaque 32
    pure (.retHash hash)
  else failure

/-- A reader of `Preconditions`. -/
def readPreconditions : Reader Preconditions := do
  let precondType ← uint32
  if precondType = 0 then pure .none
  else if precondType = 1 then do
    let minTime ← uint64
    let maxTime ← uint64
    pure (.time minTime maxTime)
  else failure

/-- A reader of the body of an `Operation`. -/
def readOperationBody : Reader OperationBody := do
  let operationType ← uint32
  if operationType = 0 then do
    let destination ← readAccountId
    let startingBalance ← int64
    pure (.createAccount destination startingBalance)
  else if operationType = 1 then do
    let destination ← readMuxedAccount
    let asset ← readAsset
    let amount ← int64
    pure (.payment destination asset amount)
  else if operationType = 6 then do
    let line ← readAsset
    let limit ← int64
    pure (.changeTrust line limit)
  else failure

/-- A reader of an `Operation`. -/
def readOperation : Reader Operation := do
  let sourceAccount ← Xdr.optional readMuxedAccount
  let body ← readOperationBody
  pure ⟨sourceAccount, body⟩

/-- **A reader of a `Transaction`**, which has at most a hundred operations and no extension. -/
def readTransaction : Reader Transaction := do
  let sourceAccount ← readMuxedAccount
  let fee ← uint32
  let seqNum ← int64
  let cond ← readPreconditions
  let memo ← readMemo
  let operations ← varArray 100 readOperation
  let ext ← uint32
  if ext = 0 then pure ⟨sourceAccount, fee, seqNum, cond, memo, operations⟩ else failure

end Xdr

/-! ## What the network reads -/

/-- An asset. -/
def viewAsset : Option StellarAssetData → Xdr.Asset
  | none => .native
  | some ⟨issuer, .alphanum4 code⟩ => .alphanum4 code issuer
  | some ⟨issuer, .alphanum12 code⟩ => .alphanum12 code issuer

/-- A memo. -/
def viewMemo : Memo → Xdr.Memo
  | .none => .none
  | .text text => .text (utf8 text)
  | .id id => .id id.toNat

/-- The time bounds. -/
def viewTimeBounds (timeBounds : Option UInt64) : Xdr.Preconditions :=
  match timeBounds.filter fun v => 0 < v with
  | some «to» => .time 0 «to».toNat
  | none => .none

/-- An operation: the network gives amounts a sign. -/
def viewOperation : Operation → Xdr.OperationBody
  | .createAccount destination amount => .createAccount destination (signed64 amount.toNat)
  | .payment destination asset amount =>
    .payment (.ed25519 destination) (viewAsset asset) (signed64 amount.toNat)
  | .changeTrust asset => .changeTrust (viewAsset (some asset)) (signed64 maxLimit.toNat)

/-- A transaction of the wallet as one of the network. -/
def view (tx : StellarTransaction) : Xdr.Transaction where
  sourceAccount := .ed25519 tx.account
  fee := tx.fee.toNat
  seqNum := signed64 tx.sequence.toNat
  cond := viewTimeBounds tx.timeBounds
  memo := viewMemo tx.memo
  operations := [⟨none, viewOperation tx.operation⟩]

/-- The memo of a transaction of the wallet is short enough. -/
def MemoFits : Memo → Prop
  | .text text => (utf8 text).length ≤ 28
  | .none | .id _ => True

section Reads

lemma reads_writeU32 (value : UInt32) : Reads uint32 (writeU32 [] value) value.toNat :=
  reads_uint32 value.toNat_lt

lemma reads_writeU64 (value : UInt64) : Reads uint64 (writeU64 [] value) value.toNat :=
  reads_uint64 value.toNat_lt

lemma reads_writeI64 (value : UInt64) : Reads int64 (writeU64 [] value) (signed64 value.toNat) :=
  reads_int64 value.toNat_lt

lemma reads_accountId (address : StellarAddress) :
    Reads Xdr.readAccountId (encodeAddress [] address) address := by
  refine (reads_writeU32 ed25519KeyType).bind ?_
  rw [if_pos (by decide)]
  exact reads_fixedOpaque (by decide) address

lemma reads_muxedAccount (address : StellarAddress) :
    Reads Xdr.readMuxedAccount (encodeAddress [] address) (.ed25519 address) := by
  refine (reads_writeU32 ed25519KeyType).bind ?_
  rw [if_pos (by decide)]
  exact (reads_fixedOpaque (by decide) address).bind_pure

/-- The encoder of an address appends. -/
lemma encodeAddress_eq (data : List UInt8) (address : StellarAddress) :
    encodeAddress data address = data ++ encodeAddress [] address := by
  rw [encodeAddress, encodeAddress, writeU32, writeU32, List.append_assoc]
  rfl

lemma encodeAsset_eq (data : List UInt8) (asset : Option StellarAssetData) :
    encodeAsset data asset = data ++ encodeAsset [] asset := by
  rcases asset with _ | ⟨issuer, code | code⟩
  · rfl
  · simp only [encodeAsset, encodeAddress, writeU32, List.append_assoc, List.nil_append]
  · simp only [encodeAsset, encodeAddress, writeU32, List.append_assoc, List.nil_append]

lemma reads_asset (asset : Option StellarAssetData) :
    Reads Xdr.readAsset (encodeAsset [] asset) (viewAsset asset) := by
  rcases asset with _ | ⟨issuer, code | code⟩
  · rw [← List.append_nil (encodeAsset [] none)]
    refine (reads_writeU32 assetTypeNative).bind ?_
    rw [if_pos (by decide)]
    exact reads_pure _
  · rw [encodeAsset, encodeAddress_eq, List.append_assoc]
    refine (reads_writeU32 assetTypeAlphanum4).bind ?_
    rw [if_neg (by decide), if_pos (by decide)]
    exact (reads_fixedOpaque (by decide) code).bind (reads_accountId issuer).bind_pure
  · rw [encodeAsset, encodeAddress_eq, List.append_assoc]
    refine (reads_writeU32 assetTypeAlphanum12).bind ?_
    rw [if_neg (by decide), if_neg (by decide), if_pos (by decide)]
    exact (reads_fixedOpaque (by decide) code).bind (reads_accountId issuer).bind_pure

lemma encodeTimeBounds_eq (data : List UInt8) (tx : StellarTransaction) :
    encodeTimeBounds data tx = data ++ encodeTimeBounds [] tx := by
  rw [encodeTimeBounds, encodeTimeBounds]
  cases tx.timeBounds.filter fun v => 0 < v with
  | none => rfl
  | some bound => simp only [writeU64, writeU32, List.append_assoc, List.nil_append]

lemma reads_timeBounds (tx : StellarTransaction) :
    Reads Xdr.readPreconditions (encodeTimeBounds [] tx) (viewTimeBounds tx.timeBounds) := by
  rw [encodeTimeBounds, viewTimeBounds]
  cases tx.timeBounds.filter fun v => 0 < v with
  | none =>
    show Reads Xdr.readPreconditions (writeU32 [] 0) .none
    rw [← List.append_nil (writeU32 [] 0)]
    refine (reads_writeU32 0).bind ?_
    rw [if_pos (by decide)]
    exact reads_pure _
  | some bound =>
    show Reads Xdr.readPreconditions (writeU64 (writeU64 (writeU32 [] 1) 0) bound) _
    have hbytes : writeU64 (writeU64 (writeU32 [] 1) 0) bound =
        writeU32 [] 1 ++ (writeU64 [] 0 ++ writeU64 [] bound) := by
      simp only [writeU64, writeU32, List.append_assoc, List.nil_append]
    rw [hbytes]
    refine (reads_writeU32 1).bind ?_
    rw [if_neg (by decide), if_pos (by decide)]
    exact (reads_writeU64 0).bind (reads_writeU64 bound).bind_pure

/-- Behind whole words the padding of a memo does not depend on what is before it. -/
theorem encodeMemo_eq {data : List UInt8} (h : data.length % 4 = 0) (memo : Memo) :
    encodeMemo data memo = data ++ encodeMemo [] memo := by
  cases memo with
  | none => rfl
  | id id => simp only [encodeMemo, writeU64, writeU32, List.append_assoc, List.nil_append]
  | text text =>
    have hpad : ∀ n, (data.length + n) % 4 = n % 4 := fun n => by omega
    simp only [encodeMemo, pad4, writeU32, List.append_assoc, List.nil_append, List.length_append,
      hpad]

/-- A memo is read back. -/
lemma reads_memo {memo : Memo} (h : MemoFits memo) :
    Reads Xdr.readMemo (encodeMemo [] memo) (viewMemo memo) := by
  cases memo with
  | none =>
    show Reads Xdr.readMemo (writeU32 [] 0) .none
    rw [← List.append_nil (writeU32 [] 0)]
    refine (reads_writeU32 0).bind ?_
    rw [if_pos (by decide)]
    exact reads_pure _
  | id id =>
    have hbytes : encodeMemo [] (.id id) = writeU32 [] 2 ++ writeU64 [] id := rfl
    rw [hbytes]
    refine (reads_writeU32 2).bind ?_
    rw [if_neg (by decide), if_neg (by decide), if_pos (by decide)]
    exact (reads_writeU64 id).bind_pure
  | text text =>
    have hlt : (utf8 text).length < 2 ^ 32 := Nat.lt_of_le_of_lt h (by decide)
    have hlength : (UInt32.ofNat (utf8 text).length).toNat = (utf8 text).length := by
      rw [UInt32.toNat_ofNat']
      exact Nat.mod_eq_of_lt hlt
    have hpad : (4 - (4 + (4 + (utf8 text).length)) % 4) % 4 = padLength (utf8 text).length := by
      rw [padLength]
      omega
    have hbytes : encodeMemo [] (.text text) = writeU32 [] 1 ++
        (beBytes 4 (utf8 text).length ++ (utf8 text ++
          List.replicate (padLength (utf8 text).length) 0)) := by
      simp only [encodeMemo, pad4, writeU32, List.append_assoc, List.nil_append, List.length_append,
        length_beBytes, hlength, hpad]
    rw [hbytes]
    refine (reads_writeU32 1).bind ?_
    rw [if_neg (by decide), if_pos (by decide)]
    exact (reads_varOpaque h hlt).bind_pure

lemma encodeOperation_eq (data : List UInt8) (operation : Operation) :
    encodeOperation data operation = data ++ encodeOperation [] operation := by
  cases operation with
  | createAccount destination amount =>
    show writeU64 (encodeAddress data destination) amount = _
    rw [encodeAddress_eq, writeU64, List.append_assoc]
    rfl
  | payment destination asset amount =>
    show writeU64 (encodeAsset (encodeAddress data destination) asset) amount = _
    rw [encodeAsset_eq, encodeAddress_eq, writeU64, List.append_assoc, List.append_assoc]
    show _ = data ++ writeU64 (encodeAsset (encodeAddress [] destination) asset) amount
    rw [encodeAsset_eq (encodeAddress [] destination), writeU64, List.append_assoc]
  | changeTrust asset =>
    show writeU64 (encodeAsset data (some asset)) maxLimit = _
    rw [encodeAsset_eq, writeU64, List.append_assoc]
    rfl

lemma reads_operation (operation : Operation) :
    Reads Xdr.readOperationBody
      (writeU32 [] operation.operationType ++ encodeOperation [] operation)
      (viewOperation operation) := by
  refine (reads_writeU32 operation.operationType).bind ?_
  cases operation with
  | createAccount destination amount =>
    rw [if_pos (by rfl)]
    exact (reads_accountId destination).bind (reads_writeI64 amount).bind_pure
  | payment destination asset amount =>
    rw [if_neg (by rw [Operation.operationType]; decide), if_pos (by rfl)]
    show Reads _ (writeU64 (encodeAsset (encodeAddress [] destination) asset) amount) _
    rw [encodeAsset_eq, writeU64, List.append_assoc]
    exact (reads_muxedAccount destination).bind
      ((reads_asset asset).bind (reads_writeI64 amount).bind_pure)
  | changeTrust asset =>
    rw [if_neg (by rw [Operation.operationType]; decide),
      if_neg (by rw [Operation.operationType]; decide), if_pos (by rfl)]
    exact (reads_asset (some asset)).bind (reads_writeI64 maxLimit).bind_pure

lemma length_encodeTimeBounds (tx : StellarTransaction) :
    (encodeTimeBounds [] tx).length % 4 = 0 := by
  rw [encodeTimeBounds]
  cases tx.timeBounds.filter fun v => 0 < v with
  | none => simp only [writeU32, List.nil_append, length_beBytes]
  | some bound =>
    simp only [writeU64, writeU32, List.nil_append, List.length_append, length_beBytes]

/-- The parts of a transaction one behind the other. -/
lemma encodeTransaction_eq (tx : StellarTransaction) :
    encodeTransaction tx = encodeAddress [] tx.account ++ (writeU32 [] tx.fee ++
      (writeU64 [] tx.sequence ++ (encodeTimeBounds [] tx ++ (encodeMemo [] tx.memo ++
        ((writeU32 [] 1 ++ (writeU32 [] 0 ++ (writeU32 [] tx.operation.operationType ++
          encodeOperation [] tx.operation))) ++ writeU32 [] 0))))) := by
  have haddress : (encodeAddress [] tx.account).length = 36 := by
    rw [encodeAddress, writeU32, List.length_append, List.nil_append, length_beBytes,
      tx.account.property]
  have hwords : (encodeTimeBounds (writeU64 (writeU32 (encodeAddress [] tx.account) tx.fee)
      tx.sequence) tx).length % 4 = 0 := by
    have hbounds := length_encodeTimeBounds tx
    rw [encodeTimeBounds_eq, writeU64, writeU32, List.length_append, List.length_append,
      List.length_append, length_beBytes, length_beBytes, haddress]
    omega
  rw [encodeTransaction, encodeOperation_eq, encodeMemo_eq hwords, encodeTimeBounds_eq]
  simp only [writeU64, writeU32, List.append_assoc, List.nil_append]

/-- **The reader finds the transaction that was encoded.** -/
theorem reads_encodeTransaction {tx : StellarTransaction} (h : MemoFits tx.memo) :
    Reads Xdr.readTransaction (encodeTransaction tx) (view tx) := by
  have hnone : Reads (Xdr.optional Xdr.readMuxedAccount) (writeU32 [] 0) none :=
    reads_optional_none _
  have hoperation : Reads Xdr.readOperation (writeU32 [] 0 ++
      (writeU32 [] tx.operation.operationType ++ encodeOperation [] tx.operation))
      ⟨none, viewOperation tx.operation⟩ :=
    hnone.bind (reads_operation tx.operation).bind_pure
  have hoperations := reads_varArray_one (show 1 ≤ 100 by decide) hoperation
  rw [encodeTransaction_eq]
  refine (reads_muxedAccount tx.account).bind ((reads_writeU32 tx.fee).bind
    ((reads_writeI64 tx.sequence).bind ((reads_timeBounds tx).bind ((reads_memo h).bind
      (hoperations.bind ?_)))))
  rw [← List.append_nil (writeU32 [] 0)]
  refine (reads_writeU32 0).bind ?_
  rw [if_pos (by decide)]
  exact reads_pure _

end Reads

/-! ## No two transactions look alike -/

lemma viewAsset_injective : Function.Injective viewAsset := by
  rintro (_ | ⟨issuer, code | code⟩) (_ | ⟨issuer', code' | code'⟩) h
  · rfl
  · cases h
  · cases h
  · cases h
  · obtain ⟨rfl, rfl⟩ := Xdr.Asset.alphanum4.inj h
    rfl
  · cases h
  · cases h
  · cases h
  · obtain ⟨rfl, rfl⟩ := Xdr.Asset.alphanum12.inj h
    rfl

lemma viewMemo_injective : Function.Injective viewMemo := by
  rintro (_ | text | id) (_ | text' | id') h
  · rfl
  · cases h
  · cases h
  · cases h
  · rw [utf8_injective (Xdr.Memo.text.inj h)]
  · cases h
  · cases h
  · cases h
  · rw [UInt64.toNat_inj.mp (Xdr.Memo.id.inj h)]

/-- The sign that the network gives a number does not lose any of it. -/
lemma signed64_toNat_inj {v v' : UInt64} (h : signed64 v.toNat = signed64 v'.toNat) : v = v' :=
  UInt64.toNat_inj.mp (signed64_inj v.toNat_lt v'.toNat_lt h)

lemma viewOperation_injective : Function.Injective viewOperation := by
  rintro (⟨destination, amount⟩ | ⟨destination, asset, amount⟩ | asset)
    (⟨destination', amount'⟩ | ⟨destination', asset', amount'⟩ | asset') h
  · obtain ⟨rfl, hamount⟩ := Xdr.OperationBody.createAccount.inj h
    rw [signed64_toNat_inj hamount]
  · cases h
  · cases h
  · cases h
  · obtain ⟨hdestination, hasset, hamount⟩ := Xdr.OperationBody.payment.inj h
    rw [Xdr.MuxedAccount.ed25519.inj hdestination, viewAsset_injective hasset,
      signed64_toNat_inj hamount]
  · cases h
  · cases h
  · cases h
  · obtain ⟨hasset, -⟩ := Xdr.OperationBody.changeTrust.inj h
    rw [Option.some.inj (viewAsset_injective hasset)]

/-- **No two transactions look alike to the network.** -/
theorem view_injective {tx tx' : StellarTransaction} (hbounds : tx.timeBounds = tx'.timeBounds)
    (h : view tx = view tx') : tx = tx' := by
  obtain ⟨haccount, hfee, hsequence, -, hmemo, hoperations⟩ := Xdr.Transaction.mk.inj h
  obtain ⟨hoperation, -⟩ := List.cons.inj hoperations
  obtain ⟨-, hbody⟩ := Xdr.Operation.mk.inj hoperation
  cases tx
  cases tx'
  congr
  · exact Xdr.MuxedAccount.ed25519.inj haccount
  · exact UInt32.toNat_inj.mp hfee
  · exact signed64_toNat_inj hsequence
  · exact viewMemo_injective hmemo
  · exact viewOperation_injective hbody

/-! ## What was requested -/

/-- The three ways a request becomes a transaction. -/
inductive Action where
  | transfer
  | tokenTransfer
  | accountAction

/-- The transaction of a request. -/
def Action.build : Action → SignerInput → Except SignerError StellarTransaction
  | transfer => Stellar.transfer
  | tokenTransfer => Stellar.tokenTransfer
  | accountAction => Stellar.accountAction

/-- The code of an asset of the network, without the zeros behind it. -/
def codeOf (bytes : List UInt8) : List UInt8 := bytes.rdropWhile (· == 0)

/-- The asset is the one a token id names: its issuer, two colons and its code, which has the form of
its length. -/
def IsToken (tokenId : Option String) (asset : Xdr.Asset) : Prop :=
  ∃ issuer code, tokenId = some (issuer ++ "::" ++ code) ∧
    (utf8 code).all isAsciiAlphanumeric ∧
    match asset with
    | .native => False
    | .alphanum4 bytes key => StellarAddress.encode key = utf8 issuer ∧
      codeOf bytes.val = utf8 code ∧ 1 ≤ (utf8 code).length ∧ (utf8 code).length ≤ 4
    | .alphanum12 bytes key => StellarAddress.encode key = utf8 issuer ∧
      codeOf bytes.val = utf8 code ∧ 5 ≤ (utf8 code).length ∧ (utf8 code).length ≤ 12

/-- The account is the one the request pays to, which is there already or is not. -/
def IsDestination (input : SignerInput) (isExist : Bool) (destination : FixedBytes 32) : Prop :=
  StellarAddress.encode destination = utf8 input.destinationAddress ∧
    input.metadata.getIsDestinationAddressExist = .ok isExist

/-- **The operation does what the request asks for.** -/
def IsAsked (input : SignerInput) : Action → Xdr.OperationBody → Prop
  | .transfer, .createAccount destination startingBalance =>
    IsDestination input false destination ∧ startingBalance = input.value
  | .transfer, .payment (.ed25519 destination) .native amount =>
    IsDestination input true destination ∧ amount = input.value
  | .tokenTransfer, .payment (.ed25519 destination) asset amount =>
    IsDestination input true destination ∧ IsToken input.asset.tokenId asset ∧ amount = input.value
  | .accountAction, .changeTrust line limit =>
    IsToken input.asset.tokenId line ∧ limit = 2 ^ 63 - 1
  | _, _ => False

/-- The transaction of the network says what the request does. -/
structure IsRequested (action : Action) (input : SignerInput) (x : Xdr.Transaction) : Prop where
  sourceAccount : ∃ key, x.sourceAccount = .ed25519 key ∧
    StellarAddress.encode key = utf8 input.senderAddress
  fee : (x.fee : ℤ) = input.fee
  seqNum : ∃ sequence, input.metadata.getSequence = .ok sequence ∧ x.seqNum = sequence.toNat
  cond : x.cond = .none
  memo : x.memo = input.memo.elim .none fun text => .text (utf8 text)
  operations : ∃ body, x.operations = [⟨none, body⟩] ∧ IsAsked input action body

/-- **The bytes are exact**: the reader takes all of them and finds what was requested, and no other
request has these bytes. -/
structure Exact (action : Action) (input : SignerInput) (tx : StellarTransaction) : Prop where
  decoded : ∃ x, Xdr.readTransaction (encodeTransaction tx) = some (x, []) ∧
    IsRequested action input x
  injective : ∀ action' input' tx', Action.build action' input' = .ok tx' →
    encodeTransaction tx = encodeTransaction tx' → tx = tx'

/-- The numbers of the request fit into 63 bits. -/
def Fits (action : Action) (input : SignerInput) : Prop :=
  (∀ sequence, input.metadata.getSequence = .ok sequence → sequence.toNat < 2 ^ 63) ∧
    (action = .accountAction ∨ input.value < 2 ^ 63)

/-! ## What is built of a request -/

/-- The operation is that of the request, with amounts that have no sign. -/
def IsChosen (input : SignerInput) : Action → Operation → Prop
  | .transfer, .createAccount destination amount =>
    IsDestination input false destination ∧ amount.toNat = input.value
  | .transfer, .payment destination none amount =>
    IsDestination input true destination ∧ amount.toNat = input.value
  | .tokenTransfer, .payment destination (some asset) amount =>
    IsDestination input true destination ∧ StellarAssetData.fromInput input = .ok asset ∧
      amount.toNat = input.value
  | .accountAction, .changeTrust asset => StellarAssetData.fromInput input = .ok asset
  | _, _ => False

/-- The transaction is made of the request. -/
structure Built (action : Action) (input : SignerInput) (tx : StellarTransaction) : Prop where
  account : StellarAddress.encode tx.account = utf8 input.senderAddress
  fee : (tx.fee.toNat : ℤ) = input.fee
  sequence : input.metadata.getSequence = .ok tx.sequence
  memo : memo input.memo = .ok tx.memo
  timeBounds : tx.timeBounds = none
  operation : IsChosen input action tx.operation

section Built

variable {input : SignerInput} {tx : StellarTransaction}

lemma toNat_of_valueAsU64 {amount : UInt64} (h : input.valueAsU64 = .ok amount) :
    amount.toNat = input.value := by
  rw [SignerInput.valueAsU64] at h
  split at h
  case isTrue hlt =>
    rw [← Except.ok.inj h]
    exact UInt64.toNat_ofNat_of_lt' hlt
  case isFalse => cases h

lemma toNat_of_feeU32 {fee : UInt32} (h : feeU32 input = .ok fee) :
    (fee.toNat : ℤ) = input.fee := by
  rw [feeU32] at h
  split at h
  case isTrue hrange =>
    rw [← Except.ok.inj h, UInt32.toNat_ofNat', Nat.mod_eq_of_lt (by omega)]
    omega
  case isFalse => cases h

/-- What `build` adds to an operation. -/
lemma built_of_build {action : Action} {fee : UInt32} {operation : Operation}
    (hfee : feeU32 input = .ok fee) (h : build input fee operation = .ok tx)
    (hoperation : IsChosen input action operation) : Built action input tx := by
  obtain ⟨account, haccount, h⟩ := bind_eq_ok_iff.mp h
  obtain ⟨sequence, hsequence, h⟩ := bind_eq_ok_iff.mp h
  obtain ⟨memo, hmemo, h⟩ := bind_eq_ok_iff.mp h
  obtain rfl := Except.ok.inj h
  exact ⟨StellarAddress.encode_of_tryParse (okOr_eq_ok_iff.mp haccount), toNat_of_feeU32 hfee,
    hsequence, hmemo, rfl, hoperation⟩

lemma isDestination_of_tryParse {isExist : Bool} {destination : StellarAddress} {e : SignerError}
    (h : okOr (StellarAddress.tryParse input.destinationAddress) e = .ok destination)
    (hexist : input.metadata.getIsDestinationAddressExist = .ok isExist) :
    IsDestination input isExist destination :=
  ⟨StellarAddress.encode_of_tryParse (okOr_eq_ok_iff.mp h), hexist⟩

/-- **What a transaction is made of.** -/
theorem built_of_ok {action : Action} (h : action.build input = .ok tx) :
    Built action input tx := by
  cases action with
  | transfer =>
    obtain ⟨amount, hamount, h⟩ := bind_eq_ok_iff.mp h
    obtain ⟨destination, hdestination, h⟩ := bind_eq_ok_iff.mp h
    obtain ⟨isExist, hexist, h⟩ := bind_eq_ok_iff.mp h
    obtain ⟨fee, hfee, h⟩ := bind_eq_ok_iff.mp h
    have hto := isDestination_of_tryParse hdestination hexist
    cases isExist with
    | false | true => exact built_of_build hfee h ⟨hto, toNat_of_valueAsU64 hamount⟩
  | tokenTransfer =>
    obtain ⟨isExist, hexist, h⟩ := bind_eq_ok_iff.mp h
    cases isExist with
    | false => cases h
    | true =>
      obtain ⟨amount, hamount, h⟩ := bind_eq_ok_iff.mp h
      obtain ⟨destination, hdestination, h⟩ := bind_eq_ok_iff.mp h
      obtain ⟨asset, hasset, h⟩ := bind_eq_ok_iff.mp h
      obtain ⟨fee, hfee, h⟩ := bind_eq_ok_iff.mp h
      exact built_of_build hfee h
        ⟨isDestination_of_tryParse hdestination hexist, hasset, toNat_of_valueAsU64 hamount⟩
  | accountAction =>
    obtain ⟨asset, hasset, h⟩ := bind_eq_ok_iff.mp h
    obtain ⟨fee, hfee, h⟩ := bind_eq_ok_iff.mp h
    exact @built_of_build _ _ .accountAction _ _ hfee h hasset

/-- A code has no zeros, so that those behind it are told from it. -/
lemma codeOf_fill {n : ℕ} {code : List UInt8} (h : code.all isAsciiAlphanumeric) :
    codeOf (fill n code) = code := by
  have hzeros : ∀ b ∈ List.replicate (n - code.length) (0 : UInt8), (b == 0) = true :=
    fun b hb => by rw [List.eq_of_mem_replicate hb]; rfl
  rw [codeOf, fill, List.rdropWhile, List.reverse_append, List.reverse_replicate,
    List.dropWhile_append_of_pos hzeros]
  cases hcode : code.reverse with
  | nil => rw [List.reverse_eq_nil_iff.mp hcode]; rfl
  | cons b rest =>
    have hb : isAsciiAlphanumeric b = true := by
      refine List.all_eq_true.mp h b (List.mem_reverse.mp ?_)
      rw [hcode]
      exact List.mem_cons_self
    have hne : (b == 0) = false := by
      rw [beq_eq_false_iff_ne]
      rintro rfl
      exact absurd hb (by decide)
    rw [List.dropWhile_cons_of_neg (by rw [hne]; decide), ← hcode, List.reverse_reverse]

/-- The asset of a request is the one its token id names. -/
lemma isToken_of_fromInput {asset : StellarAssetData}
    (h : StellarAssetData.fromInput input = .ok asset) :
    IsToken input.asset.tokenId (viewAsset (some asset)) := by
  obtain ⟨⟨issuer, code⟩, hparts, h⟩ := bind_eq_ok_iff.mp h
  obtain ⟨tokenId, htoken, hparts⟩ := Option.bind_eq_some_iff.mp (okOr_eq_ok_iff.mp hparts)
  obtain ⟨⟨before, after⟩, hsplit, hpair⟩ := Option.bind_eq_some_iff.mp hparts
  obtain ⟨rfl, rfl⟩ := Prod.mk.inj (Option.some.inj hpair)
  rw [StellarAssetData.new] at h
  split at h
  case isFalse => cases h
  case isTrue halphanumeric =>
    obtain ⟨assetCode, hcode, h⟩ := bind_eq_ok_iff.mp h
    obtain ⟨key, hkey, h⟩ := bind_eq_ok_iff.mp h
    obtain rfl := Except.ok.inj h
    have hissuer := StellarAddress.encode_of_tryParse (okOr_eq_ok_iff.mp hkey)
    refine ⟨String.ofList before, String.ofList after, ?_, halphanumeric, ?_⟩
    · rw [htoken]
      refine congrArg some (String.toList_inj.mp ?_)
      rw [append_of_splitOnceAt hsplit, String.toList_append, String.toList_append,
        String.toList_ofList (l := before), String.toList_ofList (l := after)]
    · rw [StellarAssetCode.new] at hcode
      split at hcode
      case isTrue => cases hcode
      case isFalse hpos =>
        split at hcode
        case isTrue hfour =>
          obtain rfl := Except.ok.inj hcode
          exact ⟨hissuer, codeOf_fill halphanumeric, Nat.pos_of_ne_zero hpos, hfour⟩
        case isFalse hfour =>
          split at hcode
          case isTrue htwelve =>
            obtain rfl := Except.ok.inj hcode
            exact ⟨hissuer, codeOf_fill halphanumeric, Nat.lt_of_not_le hfour, htwelve⟩
          case isFalse => cases hcode

/-- An amount that has got a sign is the one requested if it fits. -/
lemma signed64_eq_value_iff {amount : UInt64} (h : amount.toNat = input.value) :
    signed64 amount.toNat = (input.value : ℤ) ↔ input.value < 2 ^ 63 := by
  rw [h]
  exact signed64_eq_iff

lemma isAsked_iff {action : Action} {operation : Operation}
    (h : IsChosen input action operation) :
    IsAsked input action (viewOperation operation) ↔
      action = .accountAction ∨ input.value < 2 ^ 63 := by
  rcases action with _ | _ | _
  · rcases operation with ⟨destination, amount⟩ | ⟨destination, _ | asset, amount⟩ | asset
    · exact (and_iff_right h.1).trans ((signed64_eq_value_iff h.2).trans
        ⟨.inr, fun hor => hor.resolve_left nofun⟩)
    · exact (and_iff_right h.1).trans ((signed64_eq_value_iff h.2).trans
        ⟨.inr, fun hor => hor.resolve_left nofun⟩)
    · exact h.elim
    · exact h.elim
  · rcases operation with ⟨destination, amount⟩ | ⟨destination, _ | asset, amount⟩ | asset
    · exact h.elim
    · exact h.elim
    · exact (and_iff_right h.1).trans ((and_iff_right (isToken_of_fromInput h.2.1)).trans
        ((signed64_eq_value_iff h.2.2).trans ⟨.inr, fun hor => hor.resolve_left nofun⟩))
    · exact h.elim
  · rcases operation with ⟨destination, amount⟩ | ⟨destination, _ | asset, amount⟩ | asset
    · exact h.elim
    · exact h.elim
    · exact h.elim
    · exact ⟨fun _ => .inl rfl, fun _ => ⟨isToken_of_fromInput h, rfl⟩⟩

/-- A memo of a request is short enough, and is the network's. -/
lemma memo_eq_ok {value : Option String} {m : Memo} (h : memo value = .ok m) :
    MemoFits m ∧ viewMemo m = value.elim .none fun text => .text (utf8 text) := by
  cases value with
  | none =>
    obtain rfl := Except.ok.inj h
    exact ⟨trivial, rfl⟩
  | some text =>
    rw [memo] at h
    split at h
    case isTrue => cases h
    case isFalse hlength =>
      obtain rfl := Except.ok.inj h
      exact ⟨Nat.le_of_not_lt hlength, rfl⟩

/-- What the network reads is what was requested if the numbers fit. -/
lemma isRequested_iff {action : Action} (h : Built action input tx) :
    IsRequested action input (view tx) ↔ Fits action input := by
  constructor
  · intro hrequested
    obtain ⟨sequence, hsequence, hseqNum⟩ := hrequested.seqNum
    obtain ⟨body, hbody, hasked⟩ := hrequested.operations
    obtain rfl : tx.sequence = sequence := Except.ok.inj (h.sequence.symm.trans hsequence)
    obtain rfl : viewOperation tx.operation = body :=
      congrArg (fun operation : Xdr.Operation => operation.body) (List.cons.inj hbody).1
    refine ⟨fun sequence' hsequence' => ?_, (isAsked_iff h.operation).mp hasked⟩
    rw [← Except.ok.inj (hsequence.symm.trans hsequence')]
    exact signed64_eq_iff.mp hseqNum
  · rintro ⟨hsequence, hvalue⟩
    exact ⟨⟨tx.account, rfl, h.account⟩, h.fee,
      ⟨tx.sequence, h.sequence, signed64_eq_iff.mpr (hsequence _ h.sequence)⟩,
      by rw [view, h.timeBounds]; rfl, (memo_eq_ok h.memo).2,
      ⟨_, rfl, (isAsked_iff h.operation).mpr hvalue⟩⟩

/-- **When the bytes are exact**: the network's reader takes all bytes and finds the source account,
fee, sequence number, time bounds, memo and operation of the request exactly if the amount and the
sequence number fit into 63 bits.

**Proof sketch.** The reader finds the transaction that was encoded, with a sign for each amount and
for the sequence number. Below 2^63 the sign changes nothing, from there on the number becomes a
negative one. -/
theorem exact_iff {action : Action} (h : action.build input = .ok tx) :
    Exact action input tx ↔ Fits action input := by
  have hbuilt := built_of_ok h
  have hread := (reads_encodeTransaction (memo_eq_ok hbuilt.memo).1).all
  rw [← isRequested_iff hbuilt]
  constructor
  · rintro ⟨⟨x, hx, hrequested⟩, -⟩
    obtain ⟨rfl, -⟩ := Prod.mk.inj (Option.some.inj (hread.symm.trans hx))
    exact hrequested
  · intro hrequested
    refine ⟨⟨view tx, hread, hrequested⟩, fun action' input' tx' h' hbytes => ?_⟩
    have hbuilt' := built_of_ok h'
    have hread' := (reads_encodeTransaction (memo_eq_ok hbuilt'.memo).1).all
    rw [← hbytes, hread] at hread'
    exact view_injective (hbuilt.timeBounds.trans hbuilt'.timeBounds.symm)
      (Prod.mk.inj (Option.some.inj hread')).1

end Built

/-! ## An amount that is too large -/

/-- The text of the address of the zero key. -/
def zeroAddress : String := "GAAAAAAAAAAAAAAAAAAAAAAAAAAAAAAAAAAAAAAAAAAAAAAAAAAAAWHF"

/-- A transfer to an account that is there. -/
def sampleInput (value : ℕ) : SignerInput where
  asset := ⟨.stellar, none⟩
  senderAddress := zeroAddress
  destinationAddress := zeroAddress
  value := value
  memo := some "hello"
  metadata := .stellar 2 true
  fee := 1000

/-- Its transaction. -/
def sampleTransaction (amount : UInt64) : StellarTransaction where
  account := .zeros 32
  fee := 1000
  sequence := 2
  memo := .text "hello"
  timeBounds := none
  operation := .payment (.zeros 32) none amount

lemma tryParse_zeroAddress : StellarAddress.tryParse zeroAddress = some (.zeros 32) := by
  decide +kernel

lemma transfer_sampleInput {value : ℕ} (h : value < 2 ^ 64) :
    Action.build .transfer (sampleInput value) = .ok (sampleTransaction (UInt64.ofNat value)) := by
  have hvalue : (sampleInput value).valueAsU64 = .ok (UInt64.ofNat value) := if_pos h
  have hmemo : memo (some "hello") = .ok (.text "hello") := by decide +kernel
  show transfer (sampleInput value) = _
  rw [transfer, hvalue, ok_bind]
  show (okOr (StellarAddress.tryParse zeroAddress) _ >>= _) = _
  rw [tryParse_zeroAddress, okOr_some, ok_bind]
  show build (sampleInput value) 1000 (.payment (.zeros 32) none (UInt64.ofNat value)) = _
  rw [build]
  show (okOr (StellarAddress.tryParse zeroAddress) _ >>= _) = _
  rw [tryParse_zeroAddress, okOr_some, ok_bind]
  show (Except.ok (2 : UInt64) >>= _) = _
  rw [ok_bind]
  show (memo (some "hello") >>= _) = _
  rw [hmemo]
  rfl

/-- A transfer of a small amount. -/
theorem exact_iff_sample :
    Action.build .transfer (sampleInput 10000000) = .ok (sampleTransaction 10000000) ∧
      (Exact .transfer (sampleInput 10000000) (sampleTransaction 10000000) ↔
        Fits .transfer (sampleInput 10000000)) :=
  ⟨transfer_sampleInput (by decide), exact_iff (transfer_sampleInput (by decide))⟩

/-- An amount of 2^63 is accepted and becomes a negative one. -/
theorem not_exact_overflow :
    Action.build .transfer (sampleInput (2 ^ 63)) =
        .ok (sampleTransaction 9223372036854775808) ∧
      (view (sampleTransaction 9223372036854775808)).operations =
        [⟨none, .payment (.ed25519 (.zeros 32)) .native (-2 ^ 63)⟩] ∧
      ¬Exact .transfer (sampleInput (2 ^ 63)) (sampleTransaction 9223372036854775808) := by
  have hbuild := transfer_sampleInput (show 2 ^ 63 < 2 ^ 64 by decide)
  have hbuilt := built_of_ok hbuild
  refine ⟨hbuild, rfl, fun hexact => ?_⟩
  obtain ⟨x, hx, hrequested⟩ := hexact.decoded
  have hread := (reads_encodeTransaction (memo_eq_ok hbuilt.memo).1).all
  obtain ⟨rfl, -⟩ := Prod.mk.inj (Option.some.inj (hread.symm.trans hx))
  have hfits := (isRequested_iff hbuilt).mp hrequested
  rcases hfits.2 with haction | hlt
  · cases haction
  · exact absurd hlt (by decide)

end GemCore.Stellar
