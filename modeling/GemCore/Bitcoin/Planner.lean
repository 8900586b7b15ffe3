import Mathlib.Data.List.Sort
import GemCore.Bitcoin.Address

/-!
# The UTXO planner

The planner of the Bitcoin-family chains (`gem_bitcoin/src/signer/planner`): which outputs of
the sender are spent, what the transaction pays and what is left as fee. Amounts are `u64`
satoshi kept as natural numbers; the unchecked `u64` additions and the `u128 as u64` cast of
the source are reductions modulo `u64Size`.

## Main definitions

* `SpendRequest`, `SpendPlan` — what is asked for, what is built.
* `estimateFee` — the fee of a transaction shape.
* `spendableInputs` — the sender's outputs as inputs.
* `plan` — `UtxoPlanner::plan`.
* `validatePlanAmounts` — the check the signer repeats on a plan.
-/

namespace GemCore.Bitcoin

/-- `OutPoint`: the bytes of the transaction id and the output index. -/
structure OutPoint where
  txid : List UInt8
  vout : ℕ
  deriving DecidableEq

/-- `PlanInput`. -/
structure PlanInput where
  previousOutput : OutPoint
  value : ℕ
  scriptPubkey : Script
  unlockingScript : UnlockingScript
  sequence : ℕ
  deriving DecidableEq

/-- `PlanOutput`. -/
structure PlanOutput where
  value : ℕ
  scriptPubkey : Script
  deriving DecidableEq

/-- `SpendPlan`. -/
structure SpendPlan where
  inputs : List PlanInput
  outputs : List PlanOutput
  fee : ℕ
  deriving DecidableEq

/-- `SpendRequest`: `amount` and `feeRate` are `u64`, the memo is raw bytes. -/
structure SpendRequest where
  chain : BitcoinChain
  senderAddress : String
  destinationAddress : String
  amount : ℕ
  isMax : Bool
  feeRate : ℕ
  memo : Option (List UInt8)
  utxos : List UTXO

/-! ## Fee estimation -/

/-- `varint_len`. -/
def varintLen (value : ℕ) : ℕ :=
  if value ≤ 0xfc then 1
  else if value ≤ 0xffff then 3
  else if value ≤ 0xffffffff then 5
  else 9

/-- `PlanOutput::serialized_len`. -/
def PlanOutput.serializedLen (output : PlanOutput) : ℕ :=
  8 + varintLen output.scriptPubkey.length + output.scriptPubkey.length

/-- `input_weight`. -/
def inputWeight (input : PlanInput) : ℕ :=
  match input.unlockingScript with
  | .p2pkh => 148 * 4
  | .p2wpkh => 41 * 4 + 108

/-- `transaction_base_weight`. -/
def transactionBaseWeight (inputCount outputCount : ℕ) (hasWitness : Bool) : ℕ :=
  (8 + varintLen inputCount + varintLen outputCount) * 4 + if hasWitness then 2 else 0

/-- `u128::div_ceil`. -/
def divCeil (a b : ℕ) : ℕ := (a + b - 1) / b

/-- `FeeUnitType::SatVb.scale_factor()`: fee rates count tenths of a satoshi. -/
def satVbScale : ℕ := 10 ^ 1

/-- `estimate_bitcoin_fee`. -/
def estimateBitcoinFee (inputs : List PlanInput) (outputs : List PlanOutput)
    (feeRate : ℕ) : ℕ :=
  let hasWitness := inputs.any fun input =>
    match input.unlockingScript with
    | .p2wpkh => true
    | .p2pkh => false
  let weight := transactionBaseWeight inputs.length outputs.length hasWitness +
    (inputs.map inputWeight).sum + (outputs.map fun o => o.serializedLen * 4).sum
  divCeil (divCeil weight 4 * feeRate) satVbScale

/-- `estimate_zcash_fee`. -/
def estimateZcashFee (inputs : List PlanInput) (outputs : List PlanOutput) : ℕ :=
  let inputActions := divCeil (inputs.length * 150) 150
  let outputActions := divCeil (outputs.map PlanOutput.serializedLen).sum 34
  5000 * max 2 (max inputActions outputActions)

/-- `estimate_fee`: computed in 128 bits and cast to 64. -/
def estimateFee (chain : BitcoinChain) (inputs : List PlanInput) (outputs : List PlanOutput)
    (feeRate : ℕ) : ℕ :=
  let fee := match chain with
    | .zcash => estimateZcashFee inputs outputs
    | .bitcoin | .bitcoinCash | .litecoin | .doge => estimateBitcoinFee inputs outputs feeRate
  fee % u64Size

variable (lib : ScriptLib)

/-! ## Outputs -/

/-- `spend_outputs`: the payment, then the memo. -/
def spendOutputs (amount : ℕ) (paymentScript : Script) (memoOutput : Option PlanOutput) :
    List PlanOutput :=
  ⟨amount, paymentScript⟩ :: memoOutput.toList

/-- `op_return_output`. -/
def opReturnOutput (data : List UInt8) : Except SignerError PlanOutput :=
  if data.length > 80 then .error (.invalidInput "Bitcoin memo is too large")
  else .ok ⟨0, opReturn :: lib.pushSlice data⟩

/-- `dust_threshold`. The multiplication saturates at `u64::MAX`. -/
def dustThreshold (chain : BitcoinChain) (scriptPubkey : Script) : ℕ :=
  if lib.isOpReturn scriptPubkey then 0
  else
    let threshold := lib.minimalNonDust scriptPubkey
    match chain with
    | .doge => min (threshold * chain.minimumByteFee) (u64Size - 1)
    | .bitcoin | .bitcoinCash | .litecoin | .zcash => threshold

/-! ## Inputs -/

/-- The sequence number of the chain's inputs: replaceable everywhere but on Zcash. -/
def inputSequence : BitcoinChain → ℕ
  | .bitcoin | .bitcoinCash | .litecoin | .doge => 0xfffffffd
  | .zcash => 0xffffffff

/-- The loop body of `spendable_inputs`: one reported output as an input of the sender. -/
def spendableInput (chain : BitcoinChain) (senderHash : List UInt8) (utxo : UTXO) :
    Except SignerError PlanInput := do
  let message (reason : String) : SignerError := .invalidInput s!"{chain.name} {reason}"
  let address ← scriptForAddress lib chain utxo.address
  match address.unlockingScript lib, address.publicKeyHash lib with
  | some unlockingScript, some publicKeyHash =>
    if publicKeyHash ≠ senderHash then
      .error (message "UTXO address does not match sender address")
    else do
      let value ← utxo.valueU64
      if value = 0 then .error (message "UTXO amount is zero")
      else if utxo.vout < 0 then .error (message "UTXO output index is invalid")
      else
        match lib.decodeTxid utxo.transactionId with
        | none => .error (message "UTXO transaction id is invalid")
        | some txid =>
          .ok ⟨⟨txid, utxo.vout.toNat⟩, value, address.scriptPubkey, unlockingScript,
            inputSequence chain⟩
  | _, _ => .error (message "UTXO address type is unsupported")

/-- The public key hash of the sender, as `spendable_inputs` finds it. -/
def senderPublicKeyHash (chain : BitcoinChain) (senderAddress : String) :
    Except SignerError (List UInt8) := do
  let sender ← scriptForAddress lib chain senderAddress
  match sender.unlockingScript lib, sender.publicKeyHash lib with
  | some _, some publicKeyHash => .ok publicKeyHash
  | _, _ => .error (.invalidInput s!"{chain.name} sender address type is unsupported")

/-- `spendable_inputs`. -/
def spendableInputs (chain : BitcoinChain) (senderAddress : String) (utxos : List UTXO) :
    Except SignerError (List PlanInput) := do
  let senderHash ← senderPublicKeyHash lib chain senderAddress
  Lib.tryMap (spendableInput lib chain senderHash) utxos

/-! ## Selection -/

/-- `SpendTarget`. -/
inductive SpendTarget where
  | exact (value : ℕ)
  | max

/-- What the planner knows before it selects inputs. -/
structure SpendContext where
  chain : BitcoinChain
  feeRate : ℕ
  paymentScript : Script
  changeScript : Script
  memoOutput : Option PlanOutput

/-- `build_max_plan`: everything that is selected, less the fee, goes to the destination. -/
def buildMaxPlan (ctx : SpendContext) (selected : List PlanInput) (selectedAmount : ℕ) :
    Except SignerError SpendPlan :=
  let fee := estimateFee ctx.chain selected
    (spendOutputs 0 ctx.paymentScript ctx.memoOutput) ctx.feeRate
  match checkedSub selectedAmount fee with
  | none => .error .insufficientFunds
  | some value =>
    if value = 0 ∨ value < dustThreshold lib ctx.chain ctx.paymentScript then
      .error .insufficientFunds
    else .ok ⟨selected, spendOutputs value ctx.paymentScript ctx.memoOutput, fee⟩

/-- `build_exact_plan`: `none` when the selected inputs do not reach the amount and the fee. A
remainder of at least the dust threshold becomes change, a smaller one is left to the fee. -/
def buildExactPlan (ctx : SpendContext) (value : ℕ) (selected : List PlanInput)
    (selectedAmount : ℕ) : Option SpendPlan :=
  let outputs := spendOutputs value ctx.paymentScript ctx.memoOutput
  let feeWithChange := estimateFee ctx.chain selected (outputs ++ [⟨0, ctx.changeScript⟩])
    ctx.feeRate
  match (checkedSub selectedAmount value).bind (checkedSub · feeWithChange) with
  | none => none
  | some remainder =>
    if dustThreshold lib ctx.chain ctx.changeScript ≤ remainder then
      some ⟨selected, outputs ++ [⟨remainder, ctx.changeScript⟩], feeWithChange⟩
    else
      let feeWithoutChange := estimateFee ctx.chain selected outputs ctx.feeRate
      match (checkedSub selectedAmount value).bind (checkedSub · feeWithoutChange) with
      | none => none
      | some remainder =>
        some ⟨selected, outputs, (feeWithoutChange + remainder) % u64Size⟩

/-- The order of the selection: by value, then by outpoint. -/
def selectsBefore (left right : PlanInput) : Prop :=
  left.value < right.value ∨ left.value = right.value ∧
    (left.previousOutput.txid < right.previousOutput.txid ∨
      left.previousOutput.txid = right.previousOutput.txid ∧
        left.previousOutput.vout ≤ right.previousOutput.vout)

instance : DecidableRel selectsBefore := fun _ _ =>
  inferInstanceAs (Decidable (_ ∨ _ ∧ _))

/-- The selection loop: `selected` holds the candidates taken so far and `selectedAmount`
their `u64` sum. The maximal spend builds its plan at the last candidate only, the exact one
stops at the first candidate with which a plan exists. -/
def selectLoop (ctx : SpendContext) (target : SpendTarget) :
    List PlanInput → List PlanInput → ℕ → Except SignerError SpendPlan
  | [], _, _ => .error .insufficientFunds
  | candidate :: rest, selected, selectedAmount =>
    let selectedAmount := (selectedAmount + candidate.value) % u64Size
    let selected := selected ++ [candidate]
    match target with
    | .max =>
      if rest ≠ [] then selectLoop ctx target rest selected selectedAmount
      else buildMaxPlan lib ctx selected selectedAmount
    | .exact value =>
      match buildExactPlan lib ctx value selected selectedAmount with
      | some plan => .ok plan
      | none => selectLoop ctx target rest selected selectedAmount

/-- `select_inputs_and_build_plan`. -/
def selectInputsAndBuildPlan (ctx : SpendContext) (target : SpendTarget)
    (spendable : List PlanInput) : Except SignerError SpendPlan :=
  let sorted := spendable.insertionSort selectsBefore
  if (sorted.map PlanInput.value).sum > u64Size - 1 then
    .error (.invalidInput "Bitcoin amount overflow")
  else selectLoop lib ctx target sorted [] 0

/-- The memo output of a request, if it has a memo. -/
def memoOutputOf : Option (List UInt8) → Except SignerError (Option PlanOutput)
  | none => .ok none
  | some memo => do
    let output ← opReturnOutput lib memo
    .ok (some output)

/-- `UtxoPlanner::plan`. -/
def plan (request : SpendRequest) : Except SignerError SpendPlan :=
  if request.utxos = [] then .error (.invalidInput "missing input UTXOs")
  else if request.isMax = false ∧ request.amount = 0 then
    .error (.invalidInput "invalid transaction amount")
  else do
    let payment ← scriptForAddress lib request.chain request.destinationAddress
    if request.isMax = false ∧
        request.amount < dustThreshold lib request.chain payment.scriptPubkey then
      .error .dustThreshold
    else do
      let change ← scriptForAddress lib request.chain request.senderAddress
      let memoOutput ← memoOutputOf lib request.memo
      let spendable ← spendableInputs lib request.chain request.senderAddress request.utxos
      let target := if request.isMax then SpendTarget.max else SpendTarget.exact request.amount
      selectInputsAndBuildPlan lib
        ⟨request.chain, request.feeRate, payment.scriptPubkey, change.scriptPubkey, memoOutput⟩
        target spendable

/-- `validate_plan_amounts`: the signer's own check of a plan, in 128 bits. -/
def validatePlanAmounts (chain : BitcoinChain) (plan : SpendPlan) : Except SignerError Unit :=
  let inputTotal := (plan.inputs.map PlanInput.value).sum
  let outputTotal := (plan.outputs.map PlanOutput.value).sum
  if inputTotal = outputTotal + plan.fee then .ok ()
  else .error (.invalidInput (s!"{chain.name} plan amount mismatch: inputs {inputTotal}, " ++
    s!"outputs {outputTotal}, fee {plan.fee}"))

end GemCore.Bitcoin
