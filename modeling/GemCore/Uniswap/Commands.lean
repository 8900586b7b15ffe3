import GemCore.Swapper.Types

/-!
# Command lists for the Universal Router

`build_commands` (`swapper/src/uniswap/v3/commands.rs`) turns a quote into the commands the
router is to run: wrap the input, pay the referral fee on one side of the swap, swap, and
sweep or unwrap the output.

## Main definitions

* `UniversalRouterCommand` — the commands.
* `parseRequest` — the tokens of a request.
* `buildCommands` — the command list.
* `callValue` — the native value sent along.
-/

namespace GemCore.Uniswap

/-! ## Commands (`gem_evm/src/uniswap/command.rs`) -/

/-- An address with one low byte. -/
def markAddress (low : UInt8) : Address := ⟨List.replicate 19 0 ++ [low], by simp⟩

/-- `MSG_SENDER`. -/
def msgSender : Address := markAddress 1

/-- `ADDRESS_THIS`. -/
def addressThis : Address := markAddress 2

/-- `V3SwapExactIn`. -/
structure V3SwapExactIn where
  recipient : Address
  amountIn : U256
  amountOutMin : U256
  path : List UInt8
  payerIsUser : Bool

/-- `V3SwapExactInV2_1`. -/
structure V3SwapExactInV21 extends V3SwapExactIn where
  minHopPriceX36 : List U256

/-- `Transfer`. -/
structure Transfer where
  token : Address
  recipient : Address
  value : U256

/-- `Sweep`. -/
structure Sweep where
  token : Address
  recipient : Address
  amountMin : U256

/-- `PayPortion`. -/
structure PayPortion where
  token : Address
  recipient : Address
  bips : U256

/-- `WrapEth` and `UnwrapWeth`. -/
structure WrapEth where
  recipient : Address
  amountMin : U256

/-- `Permit2Permit` with its `PermitSingle` and `PermitDetails`. -/
structure Permit2Permit where
  token : Address
  amount : BitVec 160
  expiration : BitVec 48
  nonce : BitVec 48
  spender : Address
  sigDeadline : U256
  signature : List UInt8

/-- `UniversalRouterCommand`, without those no list for a V3 swap contains. -/
inductive UniversalRouterCommand where
  | v3SwapExactIn (payload : V3SwapExactIn)
  | v3SwapExactInV21 (payload : V3SwapExactInV21)
  | permit2TransferFrom (payload : Transfer)
  | sweep (payload : Sweep)
  | transfer (payload : Transfer)
  | payPortion (payload : PayPortion)
  | permit2Permit (payload : Permit2Permit)
  | wrapEth (payload : WrapEth)
  | unwrapWeth (payload : WrapEth)

/-- `UniversalRouterAbi`. -/
inductive UniversalRouterAbi where
  | v2
  | v21

/-! ## Requests -/

section Requests

variable (eth : Eth)

/-- `EVMChain::native_asset_contract`: the native asset of Celo is a token. -/
def nativeAssetContract (chain : Chain) : Option String :=
  if chain = .celo then eth.wethContract chain else none

/-- `requires_native_wrapping`. -/
def requiresNativeWrapping (asset : AssetId) : Bool :=
  asset.isNative && (nativeAssetContract eth asset.chain).isNone &&
    (eth.wethContract asset.chain).isSome

/-- `eth_address::parse_or_native_address`. -/
def parseOrNativeAddress (asset : AssetId) : Except SwapperError Address :=
  match asset.tokenId with
  | some tokenId => eth.parseStr tokenId
  | none =>
    match (nativeAssetContract eth asset.chain).or (eth.wethContract asset.chain) with
    | some contract => eth.parseStr contract
    | none => .error .notSupportedChain

/-- What `parse_request` finds. -/
structure ParsedRequest where
  tokenIn : Address
  tokenOut : Address
  amountIn : U256
  deriving DecidableEq

/-- `parse_request`, with the chains that are EVM chains and the text of the parse error. -/
def parseRequest (isEvmChain : Chain → Bool) (parseError : String) (request : QuoteRequest) :
    Except SwapperError ParsedRequest :=
  if request.fromAsset.chain ≠ request.toAsset.chain then .error .notSupportedChain
  else if !isEvmChain request.fromAsset.chain then .error .notSupportedChain
  else do
    let tokenIn ← parseOrNativeAddress eth request.fromAsset
    let tokenOut ← parseOrNativeAddress eth request.toAsset
    if 2 ^ 256 ≤ request.value then
      .error (.computeQuoteError (invalidAmount ++ ": " ++ parseError))
    else .ok ⟨tokenIn, tokenOut, BitVec.ofNat 256 request.value⟩

end Requests

/-! ## Fees and quotes -/

/-- `apply_slippage_in_bp`. -/
def applySlippageInBp (amount : U256) (bps : ℕ) : U256 :=
  amount * BitVec.ofNat 256 (10000 - min bps 10000) / BitVec.ofNat 256 10000

/-- `default_referral_fees().evm`. -/
def evmReferralFee : ReferralFee := ⟨"0x0D9DAB1A248f63B0a48965bA8435e4de7497a3dC", 50⟩

/-- The `to_value` of `get_quote`, from the amount the quoter answers. -/
def toValue (feeTokenIsInput : Bool) (amountOut : U256) : U256 :=
  if feeTokenIsInput then amountOut else applySlippageInBp amountOut evmReferralFee.bps.toNat

/-! ## The command list -/

/-- `build_v3_swap_exact_in_command`. -/
def buildV3SwapExactInCommand (recipient : Address) (amountIn amountOutMin : U256)
    (path : List UInt8) (payerIsUser : Bool) (universalRouterAbi : UniversalRouterAbi) :
    UniversalRouterCommand :=
  match universalRouterAbi with
  | .v2 => .v3SwapExactIn ⟨recipient, amountIn, amountOutMin, path, payerIsUser⟩
  | .v21 => .v3SwapExactInV21 ⟨⟨recipient, amountIn, amountOutMin, path, payerIsUser⟩, []⟩

section Build

variable (eth : Eth) (request : QuoteRequest) (tokenIn tokenOut : Address)
  (amountIn quoteAmount : U256) (path : List UInt8) (permit : Option Permit2Permit)
  (feeTokenIsInput : Bool) (universalRouterAbi : UniversalRouterAbi)

/-- The commands that make the input available. -/
def inputCommands : List UniversalRouterCommand :=
  if requiresNativeWrapping eth request.fromAsset then
    [.wrapEth ⟨addressThis, amountIn⟩]
  else
    permit.elim [] fun permit => [.permit2Permit permit]

/-- The referral fee on the input. -/
def inputFee (bps : UInt32) : U256 :=
  amountIn * BitVec.ofNat 256 bps.toNat / BitVec.ofNat 256 10000

/-- The commands that pay the referral fee and swap. -/
def swapCommands (feeOptions : ReferralFee) (feeRecipient recipient : Address) :
    List UniversalRouterCommand :=
  let wrapInputEth := requiresNativeWrapping eth request.fromAsset
  let unwrapOutputWeth := requiresNativeWrapping eth request.toAsset
  let payerIsUser := !wrapInputEth
  if feeOptions.bps > 0 then
    if feeTokenIsInput then
      let fee := inputFee amountIn feeOptions.bps
      [if wrapInputEth then .transfer ⟨tokenIn, feeRecipient, fee⟩
        else .permit2TransferFrom ⟨tokenIn, feeRecipient, fee⟩,
        buildV3SwapExactInCommand recipient (amountIn - fee) quoteAmount path payerIsUser
          universalRouterAbi]
    else
      [buildV3SwapExactInCommand addressThis amountIn 0 path payerIsUser universalRouterAbi,
        .payPortion ⟨tokenOut, feeRecipient, BitVec.ofNat 256 feeOptions.bps.toNat⟩] ++
      if !unwrapOutputWeth then [.sweep ⟨tokenOut, recipient, quoteAmount⟩] else []
  else
    [buildV3SwapExactInCommand recipient amountIn quoteAmount path payerIsUser universalRouterAbi]

/-- The commands at the end. -/
def outputCommands (recipient : Address) : List UniversalRouterCommand :=
  if requiresNativeWrapping eth request.toAsset then [.unwrapWeth ⟨recipient, quoteAmount⟩] else []

/-- The address of the referrer. It is parsed only where a fee is paid; a bad one panics. -/
def parseFeeRecipient (feeOptions : ReferralFee) (recipient : Address) : Except Failure Address :=
  if feeOptions.bps > 0 then orPanic (eth.parse feeOptions.address) else .ok recipient

/-- `build_commands`. -/
def buildCommands : Except Failure (List UniversalRouterCommand) := do
  let feeOptions := evmReferralFee
  let recipient ← orErr (eth.parseStr request.walletAddress)
  let feeRecipient ← parseFeeRecipient eth feeOptions recipient
  .ok (inputCommands eth request amountIn permit ++
    swapCommands eth request tokenIn tokenOut amountIn quoteAmount path feeTokenIsInput
      universalRouterAbi feeOptions feeRecipient recipient ++
    outputCommands eth request quoteAmount recipient)

end Build

/-- The value of the call, in `get_quote_data`. -/
def callValue (eth : Eth) (request : QuoteRequest) : ℕ :=
  if requiresNativeWrapping eth request.fromAsset then request.value else 0

end GemCore.Uniswap
