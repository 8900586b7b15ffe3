import Mathlib.Data.List.Sort
import GemCore.Lib.Result
import GemCore.Primitives.Hex
import GemCore.Primitives.TransactionLoad
import GemCore.Cardano.Transaction

/-!
# The Cardano planner

Which unspent outputs a Cardano transfer spends, what it pays and what fee it leaves
(`gem_cardano/src/planner.rs`, `address.rs`). The fee is computed from the size of a
transaction with a placeholder fee, amount and change, and the amounts are settled after it.

## Main definitions

* `CardanoLib` — the third-party functions.
* `parseAddress` — `ShelleyAddress::parse`.
* `planTransfer` — `plan_transfer`.
* `transactionFromPlan` — `transaction_from_plan`.
-/

namespace GemCore.Cardano

/-- The third-party functions of the planner: the bech32 decoder and the hash of the auxiliary
data. -/
structure CardanoLib where
  /-- `bech32::decode`: human-readable part and data. -/
  bech32Decode : String → Option (String × List UInt8)
  /-- `blake2b_256`. -/
  blake2b256 : List UInt8 → Lib.FixedBytes 32

/-! ## Addresses -/

/-- `ShelleyAddress::from_bytes`: the header byte carries the address type in its high and the
network in its low half, and fixes the length. -/
def fromBytes (bytes : List UInt8) : Except SignerError (List UInt8) :=
  match bytes with
  | [] => .error (.invalidInput "invalid Cardano address")
  | header :: _ =>
    if header &&& 0x0f ≠ 1 then .error (.invalidInput "unsupported Cardano address network")
    else if header >>> 4 = 0 then
      if bytes.length ≠ 57 then .error (.invalidInput "invalid Cardano base address")
      else .ok bytes
    else if header >>> 4 = 6 then
      if bytes.length ≠ 29 then .error (.invalidInput "invalid Cardano enterprise address")
      else .ok bytes
    else .error (.invalidInput "unsupported Cardano address type")

variable (lib : CardanoLib)

/-- `ShelleyAddress::parse`. -/
def parseAddress (address : String) : Except SignerError (List UInt8) :=
  match lib.bech32Decode address with
  | none => .error (.invalidInput "invalid Cardano address")
  | some (hrp, bytes) =>
    if hrp ≠ "addr" then .error (.invalidInput "unsupported Cardano address network")
    else fromBytes bytes

/-- `ShelleyAddress::payment_hash`. -/
def paymentHash (address : List UInt8) : List UInt8 := (address.drop 1).take 28

/-! ## Unspent outputs -/

/-- `FEE_ESTIMATE_LOVELACE`: the placeholder fee. -/
def feeEstimateLovelace : ℕ := 170000

/-- `MIN_OUTPUT_LOVELACE`: the smallest change. -/
def minOutputLovelace : ℕ := 1000000

/-- `utxo_transaction_input`. -/
def utxoTransactionInput (utxo : UTXO) : Except SignerError TransactionInput :=
  match decodeHexArray 32 utxo.transactionId with
  | none => .error (.invalidInput "invalid Cardano UTXO transaction id")
  | some transactionHash =>
    if utxo.vout < 0 then .error (.invalidInput "invalid Cardano UTXO output index")
    else .ok ⟨transactionHash, utxo.vout.toNat⟩

/-- `utxo_amount`. -/
def utxoAmount (utxo : UTXO) : Except SignerError ℕ := do
  let amount ← utxo.valueU64
  if amount = 0 then .error (.invalidInput "invalid Cardano UTXO amount") else .ok amount

/-- The loop body of `utxos_from_metadata`. -/
def checkUtxo (sender : List UInt8) (utxo : UTXO) : Except SignerError Unit := do
  let _ ← utxoTransactionInput utxo
  let _ ← utxoAmount utxo
  let address ← parseAddress lib utxo.address
  if paymentHash address ≠ paymentHash sender then
    .error (.invalidInput "Cardano UTXO address does not match sender address")
  else .ok ()

/-- `utxos_from_metadata`. -/
def utxosFromMetadata (metadata : TransactionLoadMetadata) (senderAddress : String) :
    Except SignerError (List UTXO) := do
  let sender ← parseAddress lib senderAddress
  let utxos ← metadata.getUtxos
  let _ ← Lib.tryMap (checkUtxo lib sender) utxos
  .ok utxos

/-- `SignerError::invalid_input("Cardano amount overflow")` for a failed checked operation. -/
def orOverflow : Option ℕ → Except SignerError ℕ
  | some value => .ok value
  | none => .error (.invalidInput "Cardano amount overflow")

/-- `sum_amounts`: the fold, from the sum so far. -/
def sumAmounts : List UTXO → ℕ → Except SignerError ℕ
  | [], sum => .ok sum
  | utxo :: rest, sum => do
    let amount ← utxoAmount utxo
    let sum ← orOverflow (checkedAdd sum amount)
    sumAmounts rest sum

/-- The selection loop of `select_utxos`: candidates are taken until the target is reached. -/
def selectLoop (target : ℕ) :
    List (UTXO × ℕ) → List UTXO → ℕ → Except SignerError (List UTXO)
  | [], selected, _ => .ok selected
  | (utxo, amount) :: rest, selected, selectedAmount => do
    let selectedAmount ← orOverflow (checkedAdd selectedAmount amount)
    let selected := selected ++ [utxo]
    if target ≤ selectedAmount then .ok selected
    else selectLoop target rest selected selectedAmount

/-- The target of `select_utxos`: a third more than the amount, the placeholder fee and the
smallest change. -/
def selectionTarget (amount : ℕ) : Except SignerError ℕ :=
  orOverflow ((checkedMul amount 4).bind fun value =>
    (checkedAdd (value / 3) feeEstimateLovelace).bind (checkedAdd · minOutputLovelace))

/-- `select_utxos`: all of them for the maximum, the largest first otherwise. -/
def selectUtxos (utxos : List UTXO) (amount : ℕ) (maxAmount : Bool) :
    Except SignerError (List UTXO) :=
  if maxAmount then .ok utxos
  else do
    let target ← selectionTarget amount
    let candidates ← Lib.tryMap (fun utxo => do
      let amount ← utxoAmount utxo
      .ok (utxo, amount)) utxos
    let sorted := candidates.insertionSort fun left right => right.2 ≤ left.2
    let selected ← selectLoop target sorted [] 0
    if selected = [] then .error (.invalidInput "missing input UTXOs") else .ok selected

/-! ## Plans -/

/-- `TransactionPlan`. -/
structure TransactionPlan where
  utxos : List UTXO
  amount : ℕ
  fee : ℕ
  change : ℕ
  deriving DecidableEq

/-- `transaction_destination_address`. -/
def transactionDestinationAddress (input : TransactionLoadInput) : String :=
  match input.inputType with
  | .swap _ _ data => data.«to»
  | .transfer _ | .other => input.destinationAddress

/-- `transaction_memo`: the memo of the request, else that of the swap. -/
def transactionMemo (input : TransactionLoadInput) : Option String :=
  match input.getMemo, input.inputType with
  | some memo, _ => some memo
  | none, .swap _ _ data => data.memo
  | none, _ => none

/-- The change output of `transaction_from_plan`, if there is change. -/
def changeOutputs (senderAddress : String) (change : ℕ) :
    Except SignerError (List TransactionOutput) :=
  if 0 < change then do
    let address ← parseAddress lib senderAddress
    .ok [⟨address, change⟩]
  else .ok []

/-- `transaction_from_plan`. -/
def transactionFromPlan (input : TransactionLoadInput) (plan : TransactionPlan) :
    Except SignerError Transaction := do
  let destination ← parseAddress lib (transactionDestinationAddress input)
  let blockNumber ← input.metadata.getBlockNumber
  let change ← changeOutputs lib input.senderAddress plan.change
  let inputs ← Lib.tryMap utxoTransactionInput plan.utxos
  .ok {
    inputs := inputs
    outputs := ⟨destination, plan.amount⟩ :: change
    fee := plan.fee
    expirationBlockNumber := (blockNumber + 7200) % u64Size
    memo := transactionMemo input }

/-- `transaction_fee`: a constant and a price for each byte, in thousandths of a lovelace,
rounded up. The source computes it in `u64`, which no size below `4 * 10^14` bytes leaves. -/
def transactionFee (transactionSize : ℕ) : ℕ :=
  (155881000 + transactionSize * 44046 + 999) / 1000

/-- `estimate_fee`: the fee of the transaction with the placeholder fee and with the amount
and the change that go with it. -/
def estimateFee (input : TransactionLoadInput) (selected : List UTXO) (requestedAmount : ℕ)
    (maxAmount : Bool) : Except SignerError ℕ := do
  let available ← sumAmounts selected 0
  let amount := if maxAmount then available - feeEstimateLovelace
    else min requestedAmount (available - feeEstimateLovelace)
  let change := available - amount - feeEstimateLovelace
  let transaction ← transactionFromPlan lib input ⟨selected, amount, feeEstimateLovelace, change⟩
  .ok (transactionFee (transaction.signedSize lib.blake2b256))

/-- The check of the input type in `plan_transfer`. -/
def checkInputType : TransactionInputType → Except SignerError Unit
  | .transfer asset =>
    if asset.chain = .cardano ∧ asset.isNative = true then .ok ()
    else .error (.invalidInput "unsupported Cardano token transfer")
  | .swap asset _ _ =>
    if asset.chain = .cardano ∧ asset.isNative = true then .ok ()
    else .error (.invalidInput "unsupported Cardano token swap")
  | .other => .error (.invalidInput "unsupported Cardano transaction type")

/-- The unspent outputs `plan_transfer` spends. -/
def plannedUtxos (input : TransactionLoadInput) (requestedAmount : ℕ) :
    Except SignerError (List UTXO) := do
  let utxos ← utxosFromMetadata lib input.metadata input.senderAddress
  if utxos = [] then .error (.invalidInput "missing input UTXOs")
  else selectUtxos utxos requestedAmount input.isMaxValue

/-- The amount `plan_transfer` pays: what the fee leaves when spending the maximum. -/
def plannedAmount (maxAmount : Bool) (available requestedAmount fee : ℕ) :
    Except SignerError ℕ :=
  if maxAmount then
    match checkedSub available fee with
    | some amount => .ok amount
    | none => .error .insufficientFunds
  else .ok requestedAmount

/-- The end of `plan_transfer`: what is left becomes change, or part of the fee when it is
too small for an output. -/
def settleChange (selected : List UTXO) (available amount fee : ℕ) :
    Except SignerError TransactionPlan := do
  let spent ← orOverflow (checkedAdd amount fee)
  if available < spent then .error .insufficientFunds
  else
    let change := available - spent
    if 0 < change ∧ change < minOutputLovelace then
      .ok ⟨selected, amount, (fee + change) % u64Size, 0⟩
    else .ok ⟨selected, amount, fee, change⟩

/-- `plan_transfer`. -/
def planTransfer (input : TransactionLoadInput) : Except SignerError TransactionPlan := do
  checkInputType input.inputType
  let requestedAmount ← input.valueAsU64
  let selected ← plannedUtxos lib input requestedAmount
  let available ← sumAmounts selected 0
  let fee ← estimateFee lib input selected requestedAmount input.isMaxValue
  let amount ← plannedAmount input.isMaxValue available requestedAmount fee
  settleChange selected available amount fee

end GemCore.Cardano
