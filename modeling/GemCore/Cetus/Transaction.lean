import GemCore.Cetus.Route
import GemCore.Sui.Balances
import GemCore.Swapper.Types

/-!
# Swap transactions

The transaction of a swap over Cetus pools (`swapper/src/cetus_clmm/tx_builder.rs`). Each hop borrows
its output from a pool, and hands out a receipt; once all hops are made, the receipts are paid back one
after the other.

## Main definitions

* `ObjectResolver` — the versions of shared objects.
* `PendingRepay` — what a hop is paid back with.
* `buildTransaction` — the transaction.
-/

namespace GemCore.Cetus

open Lib (Build leBytes)
open Sui (TextLib Ref Command SuiError ObjectInput OwnedCoins PtbBuild Ptb.pureBytes Ptb.pureU64
  Ptb.pureAddress Ptb.gas Ptb.object Ptb.splitCoin Ptb.mergeCoins Ptb.transferObjects
  TransactionBuilderInput Transaction isSuiCoin)

/-! ## Computations -/

/-- `SuiError::to_string`. -/
def suiErrorText : SuiError → String
  | .invalidInput message => message
  | .insufficientBalance coinType => "insufficient " ++ coinType ++ " balance"
  | .noGasCoins => "No SUI coins available for gas"

/-- A computation that calls the builder, and may fail or panic. -/
abbrev SwapBuild : Type → Type := Build (List (Command Ref)) Failure

/-- `error`. -/
def ofPtb {α : Type} (x : PtbBuild α) : SwapBuild α := fun commands =>
  (x commands).mapError fun err => .err (.transactionError (suiErrorText err))

/-- A check of `build_transaction`. -/
def fail {α : Type} (error : SwapperError) : SwapBuild α := Build.ofExcept (.error (.err error))

/-- `SuiAddress::from_str`. -/
def suiAddress (texts : TextLib) (address : String) : SwapBuild Sui.Address :=
  Build.ofExcept ((texts.address address).mapError fun _ =>
    .err (.computeQuoteError (invalidAddress ++ ": invalid address")))

/-! ## Shared objects -/

/-- `ObjectResolver`. -/
structure ObjectResolver where
  sharedVersions : String → Option UInt64

/-- `ObjectResolver::shared_object_input`. -/
def ObjectResolver.sharedObjectInput (resolver : ObjectResolver) (texts : TextLib)
    (objectId : String) (mutable : Bool) : Except SuiError ObjectInput := do
  let version ← Lib.okOr (resolver.sharedVersions objectId)
    (.invalidInput ("Sui shared object was not prefetched: " ++ objectId))
  let address ← Sui.parseAddress texts objectId
  .ok (.shared address version mutable)

/-- `ObjectResolver::shared_object`. -/
def ObjectResolver.sharedObject (resolver : ObjectResolver) (texts : TextLib) (objectId : String)
    (mutable : Bool) : PtbBuild Ref := do
  let input ← Build.ofExcept (resolver.sharedObjectInput texts objectId mutable)
  Ptb.object input

/-- `CETUS_GLOBAL_CONFIG`. -/
def cetusGlobalConfig : String :=
  "0xdaa46292632c3c4d8f31f23ea0f9b36a28ff3677e9684980e4438403a67a3d8f"

/-- `CETUS_PARTNER`. -/
def cetusPartner : String :=
  "0x08b1875b6541c847f05ed71d04cbcfa66e4e8619bf3b8923b07c5b5409433366"

/-- `sui_clock_object_input`. -/
def suiClockObjectInput : ObjectInput := .shared (Sui.byteAddress 6) 1 false

/-! ## The transaction -/

/-- `BuildInput`. -/
structure BuildInput where
  transaction : TransactionBuilderInput
  amount : UInt64
  fromCoins : OwnedCoins

/-- `PendingRepay`. -/
structure PendingRepay where
  hop : Hop
  pool : Ref
  payInput : Ref
  payZeroOutput : Ref
  receipt : Ref

/-- `pure` of a `bool`. -/
def pureBool (value : Bool) : PtbBuild Ref := Ptb.pureBytes [if value then 1 else 0]

/-- `pure` of a `u128`. -/
def pureU128 (value : U128) : PtbBuild Ref := Ptb.pureBytes (leBytes 16 value.toNat)

/-- `Argument::to_nested` of three results. -/
def toNested3 (result : Ref) : SwapBuild (Ref × Ref × Ref) :=
  match Sui.recorder.toNested result 3 with
  | [recvA, recvB, receipt] => pure (recvA, recvB, receipt)
  | _ => fail (.transactionError "Cetus CLMM flash_swap did not return expected outputs")

/-- `transfer_coin`. -/
def transferCoin (coin : Ref) (recipient : Sui.Address) : PtbBuild Unit := do
  let recipientArgument ← Ptb.pureAddress recipient
  Ptb.transferObjects [coin] recipientArgument

section Transactions

variable (texts : TextLib) (tryBuild : Transaction → Except String Unit)

/-- `pay_referral_fee`. -/
def payReferralFee (inputCoin : Ref) (fee : UInt64) (referralFee : ReferralFee) :
    SwapBuild Ref := do
  if fee = 0 then pure inputCoin
  else
    let feeAmount ← ofPtb (Ptb.pureU64 fee)
    let feeCoin ← ofPtb
      (Ptb.splitCoin inputCoin feeAmount (.invalidInput "Sui referral fee split failed"))
    let recipient ← suiAddress texts referralFee.address
    ofPtb (transferCoin feeCoin recipient)
    pure inputCoin

/-- The shared objects and the package of the pools. -/
structure PoolArguments where
  publishedAt : Sui.Address
  globalConfig : Ref
  partner : Ref
  clock : Ref

section Hops

variable (resolver : ObjectResolver) (slippageBps : UInt32) (pools : PoolArguments)

/-- One hop of the loop over the hops; `isFirst` is `idx == 0`. -/
def flashSwap (hop : Hop) (isFirst : Bool) (currentBalance : Ref) (currentCoinType : String) :
    SwapBuild (Ref × PendingRepay) := do
  let pool ← ofPtb (resolver.sharedObject texts hop.poolId true)
  let amountArgument ← ofPtb
    (if isFirst then Ptb.pureU64 hop.amountIn
    else Sui.balanceValue texts currentCoinType currentBalance)
  let zeroOutput ← ofPtb (Sui.balanceZero texts hop.outputCoinType)
  let a2b ← ofPtb (pureBool hop.a2b)
  let byAmountIn ← ofPtb (pureBool true)
  let sqrtPriceLimit ← ofPtb (pureU128 (sqrtPriceLimitWithSlippage hop slippageBps))
  let returns ← ofPtb (Sui.moveCall texts pools.publishedAt "pool" "flash_swap_with_partner"
    [hop.coinA, hop.coinB] [pools.globalConfig, pool, pools.partner, a2b, byAmountIn,
      amountArgument, sqrtPriceLimit, pools.clock])
  let (recvA, recvB, receipt) ← toNested3 returns
  let (outputBalance, emptyBalance) := hop.orderByDirection recvB recvA
  ofPtb (Sui.destroyZeroBalance texts hop.inputCoinType emptyBalance)
  pure (outputBalance, ⟨hop, pool, currentBalance, zeroOutput, receipt⟩)

/-- The loop over the hops, with the balance that goes into the next one and what is pending. -/
def flashSwaps : List Hop → Bool → Ref → String → List PendingRepay →
    SwapBuild (Ref × List PendingRepay)
  | [], _, currentBalance, _, pendingRepays => pure (currentBalance, pendingRepays)
  | hop :: hops, isFirst, currentBalance, currentCoinType, pendingRepays => do
    let (outputBalance, pending) ←
      flashSwap texts resolver slippageBps pools hop isFirst currentBalance currentCoinType
    flashSwaps hops false outputBalance hop.outputCoinType (pendingRepays ++ [pending])

/-- One round of the loop that pays back. -/
def repayFlashSwap (repay : PendingRepay) : SwapBuild Unit := do
  let (payA, payB) := repay.hop.orderByDirection repay.payInput repay.payZeroOutput
  let _result ← ofPtb (Sui.moveCall texts pools.publishedAt "pool" "repay_flash_swap_with_partner"
    [repay.hop.coinA, repay.hop.coinB]
    [pools.globalConfig, repay.pool, pools.partner, payA, payB, repay.receipt])

/-- The loop that pays back. -/
def repayFlashSwaps : List PendingRepay → SwapBuild Unit
  | [] => pure ()
  | repay :: repays => do
    repayFlashSwap texts pools repay
    repayFlashSwaps repays

end Hops

/-- The fee on the output. -/
def payOutputFee (outputCoin : Ref) (route : PoolRoute) (referralFee : ReferralFee) :
    SwapBuild Unit := do
  if route.feeSide = .output ∧ route.feeAmount > 0 then
    let feeAmount ← ofPtb (Ptb.pureU64 route.feeAmount)
    let feeCoin ← ofPtb
      (Ptb.splitCoin outputCoin feeAmount (.invalidInput "Cetus CLMM output fee split failed"))
    let recipient ← suiAddress texts referralFee.address
    ofPtb (transferCoin feeCoin recipient)

/-- The coin that is swapped, and its amount. -/
def swapInput (inputCoin : Ref) (amount : UInt64) (route : PoolRoute) (referralFee : ReferralFee) :
    SwapBuild (Ref × UInt64) := do
  match route.feeSide with
  | .input => do
    let afterFee ← payReferralFee texts inputCoin route.feeAmount referralFee
    if amount < route.feeAmount then
      fail (.computeQuoteError "Cetus CLMM referral fee exceeds input amount")
    else pure (afterFee, amount - route.feeAmount)
  | .output => pure (inputCoin, amount)

/-- The check of the smallest output: it is split off and merged back. -/
def checkMinOut (outputCoin : Ref) (minOut : UInt64) : SwapBuild Unit := do
  let minOutArgument ← ofPtb (Ptb.pureU64 minOut)
  let splitOff ← ofPtb
    (Ptb.splitCoin outputCoin minOutArgument (.invalidInput "Cetus CLMM min-out split failed"))
  ofPtb (Ptb.mergeCoins outputCoin [splitOff])

/-- The output goes to the gas coin of the sender, or to the destination. -/
def deliverOutput (outputCoin : Ref) (outputCoinType : String) (sender destination : Sui.Address) :
    SwapBuild Unit := do
  if destination = sender ∧ isSuiCoin outputCoinType = true then
    let gasCoin ← ofPtb Ptb.gas
    ofPtb (Ptb.mergeCoins gasCoin [outputCoin])
  else ofPtb (transferCoin outputCoin destination)

/-- The address that the output is for. -/
def destinationText (request : QuoteRequest) : String :=
  if request.destinationAddress.isEmpty then request.walletAddress else request.destinationAddress

/-- The commands of `build_transaction`. -/
def buildSwapPtb (resolver : ObjectResolver) (request : QuoteRequest) (slippageBps : UInt32)
    (route : PoolRoute) (referralFee : ReferralFee) (publishedAt : String) (input : BuildInput) :
    SwapBuild Unit := do
  let publishedAt ← suiAddress texts publishedAt
  let inputCoinType ← Build.ofExcept (orPanic route.inputCoinType)
  let inputCoin ← ofPtb (Sui.buildInputCoin texts inputCoinType input.amount input.fromCoins)
  let (swapCoin, swapAmount) ← swapInput texts inputCoin input.amount route referralFee
  let firstHop ← Build.ofExcept (okOrErr route.hops.head?
    (.transactionError "Cetus CLMM route has no hops"))
  if firstHop.amountIn ≠ swapAmount then
    fail (.transactionError "Cetus CLMM first hop amount mismatch")
  else
    let globalConfig ← ofPtb (resolver.sharedObject texts cetusGlobalConfig false)
    let partner ← ofPtb (resolver.sharedObject texts cetusPartner true)
    let clock ← ofPtb (Ptb.object suiClockObjectInput)
    let currentBalance ← ofPtb (Sui.intoBalance texts inputCoinType swapCoin)
    let pools : PoolArguments := ⟨publishedAt, globalConfig, partner, clock⟩
    let (outputBalance, pendingRepays) ← flashSwaps texts resolver slippageBps pools route.hops true
      currentBalance inputCoinType []
    repayFlashSwaps texts pools pendingRepays
    let sender ← suiAddress texts request.walletAddress
    let outputCoinType ← Build.ofExcept (orPanic route.outputCoinType)
    let outputCoin ← ofPtb (Sui.fromBalance texts outputCoinType outputBalance)
    payOutputFee texts outputCoin route referralFee
    checkMinOut outputCoin (applySlippageInBp route.netAmountOut slippageBps)
    let destination ← suiAddress texts (destinationText request)
    deliverOutput outputCoin outputCoinType sender destination

/-- `build_transaction`. -/
def buildTransaction (resolver : ObjectResolver) (request : QuoteRequest) (slippageBps : UInt32)
    (route : PoolRoute) (referralFee : ReferralFee) (publishedAt : String) (input : BuildInput) :
    Except Failure Transaction := do
  let ((), ptb) ←
    buildSwapPtb texts resolver request slippageBps route referralFee publishedAt input []
  (Sui.finishTransaction texts tryBuild ptb input.transaction).mapError fun err =>
    .err (.transactionError (suiErrorText err))

end Transactions

end GemCore.Cetus
