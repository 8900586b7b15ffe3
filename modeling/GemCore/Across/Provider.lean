import Mathlib.Data.UInt
import GemCore.Across.Fees
import GemCore.Primitives.WalletId

/-!
# Quotes of the Across bridge

`Across::get_quote` (`swapper/src/across/provider.rs`): the route is resolved, the pool and the
destination chain are asked, the fees are taken off the amount, and the order to be relayed is
put together with a message that splits what arrives between the user and the referrer.

The tables of the deployment and the answers of the network are parameters. A message and the
relay data are kept as values; their ABI encoding is left out.

## Main definitions

* `messageForMulticallHandler` — the message, and the referral fee in it.
* `getQuote` — the quote.
* `quoteInputs` — what the amounts in a quote are computed from.
-/

namespace GemCore.Across

/-! ## Data -/

/-- The calls a message is made of: a plain transfer of value, `WETH9::withdraw` and
`IERC20::transfer`. -/
inductive CallData where
  | empty
  | withdraw (wad : U256)
  | transfer (recipient : Address) (value : U256)

/-- `multicall_handler::Call`. -/
structure Call where
  target : Address
  callData : CallData
  value : U256

/-- `multicall_handler::Instructions`. -/
structure Instructions where
  calls : List Call
  fallbackRecipient : Address

/-- `V3RelayData`; an empty message is `none`. -/
structure V3RelayData where
  depositor : Address
  recipient : Address
  exclusiveRelayer : Address
  inputToken : Address
  outputToken : Address
  inputAmount : U256
  outputAmount : U256
  originChainId : ℕ
  depositId : UInt32
  fillDeadline : UInt32
  exclusivityDeadline : UInt32
  message : Option Instructions

/-- `AcrossDeployment`. -/
structure AcrossDeployment where
  chainId : ℕ
  spokePool : String
  multicallHandler : String

/-- `AssetMapping`. -/
structure AssetMapping where
  capitalCost : CapitalCostConfig
  set : List AssetId

/-- The tables of the deployment, the address parsers, and the floating-point conversion. -/
structure Tables extends Eth where
  /-- `AcrossDeployment::deployment_by_chain`. -/
  deploymentByChain : Chain → Option AcrossDeployment
  /-- `AcrossDeployment::asset_mappings`. -/
  assetMappings : List AssetMapping
  /-- `default_referral_fees().for_chain`. -/
  referralFee : Chain → Option ReferralFee
  /-- `convert_apy_to_weekly_fee`. -/
  convertApyToWeeklyFee : ℤ → UInt64
  /-- The text of `ParseError` for a number that does not fit 256 bits. -/
  parseError : String

/-- A result of the multicall contract, by what it can be decoded as. -/
structure CallResult where
  asBool : Except SwapperError Bool
  asLiquidReserves : Except SwapperError U256
  asUint : Except SwapperError U256
  asAnswer : Except SwapperError ℤ

/-- A result of a batch request, by what it can be decoded as. -/
structure RpcResult where
  asGas : Except SwapperError U256
  asMulticall : Except SwapperError (List CallResult)

/-- The request for an estimate of the gas of a fill. -/
structure FillGasRequest where
  spokePool : String
  value : U256
  relayData : V3RelayData
  repaymentChainId : ℕ

/-- The network, as a function of what is asked. -/
structure Network where
  /-- The batch to Ethereum: the results of the hub pool and, if asked for, the price. -/
  hubPool : (mainnetToken : Address) → (amount : U256) → (includeGasTokenPrice : Bool) →
    Except SwapperError (List CallResult)
  /-- `TokenConfig::rate_model` of the configuration in that batch. -/
  rateModel : (mainnetToken : Address) → (input output : AssetId) → Except SwapperError RateModel
  /-- The batch to the destination: gas limit, gas price and, if asked for, the price. -/
  destination : Chain → FillGasRequest → (includeGasTokenPrice : Bool) →
    Except SwapperError (List RpcResult)

/-- `Quote`, with the relay data that `route_data` encodes. -/
structure Quote where
  fromValue : ℕ
  toValue : ℕ
  input : AssetId
  output : AssetId
  routeData : V3RelayData

/-! ## The route -/

section Route

variable (T : Tables)

/-- `parse_address`. -/
def parseAddress (chain : Chain) (address : String) : Except SwapperError Address :=
  if chain = .tron then T.parseTron address else T.parseStr address

/-- `across_asset_id`. -/
def acrossAssetId (asset : AssetId) : Option AssetId :=
  if asset.chain = .tron then some asset else T.convertNativeToWeth asset

/-- `is_supported_route`. -/
def isSupportedRoute (fromAsset toAsset : AssetId) : Bool :=
  if toAsset.chain = .tron then false
  else
    match acrossAssetId T fromAsset, acrossAssetId T toAsset with
    | some source, some target =>
      T.assetMappings.any fun mapping =>
        decide (source ∈ mapping.set) && decide (target ∈ mapping.set)
    | _, _ => false

/-- What `get_quote` knows before it asks the network. -/
structure RouteInfo where
  fromAmount : U256
  depositor : Address
  recipient : Address
  destination : AcrossDeployment
  inputAsset : AssetId
  outputAsset : AssetId
  outputToken : Address
  capitalCost : CapitalCostConfig
  mainnetToken : Address

/-- The token address of an asset. -/
def tokenAddress (asset : AssetId) : Except Failure Address := do
  let tokenId ← okOrErr asset.tokenId .notSupportedAsset
  orErr (parseAddress T asset.chain tokenId)

/-- `eth_address::parse_asset_id`; the text of an asset is its chain and token. -/
def parseAssetId (asset : AssetId) : Except SwapperError Address :=
  match asset.tokenId with
  | some tokenId => T.parseStr tokenId
  | none => .error (.computeQuoteError (invalidAddress ++ ": " ++ asset.chain.asRef))

/-- The first part of `get_quote`. -/
def resolveRoute (request : QuoteRequest) : Except Failure RouteInfo := do
  if request.fromAsset.chain = request.toAsset.chain then .error (.err .noQuoteAvailable)
  if request.fromAsset.chain = .tron ∧ request.fromAsset.isNative then
    .error (.err .notSupportedAsset)
  if 2 ^ 256 ≤ request.value then
    .error (.err (.computeQuoteError (invalidAmount ++ ": " ++ T.parseError)))
  let depositor ← orErr (parseAddress T request.fromAsset.chain request.walletAddress)
  let recipient ← orErr (parseAddress T request.toAsset.chain request.destinationAddress)
  let _ ← okOrErr (T.deploymentByChain request.fromAsset.chain) .notSupportedChain
  let destination ← okOrErr (T.deploymentByChain request.toAsset.chain) .notSupportedChain
  if !isSupportedRoute T request.fromAsset request.toAsset then .error (.err .noQuoteAvailable)
  let inputAsset ← okOrErr (acrossAssetId T request.fromAsset) .notSupportedAsset
  let outputAsset ← okOrErr (acrossAssetId T request.toAsset) .notSupportedAsset
  let outputToken ← tokenAddress T outputAsset
  let mapping ← okOrErr (T.assetMappings.find? fun mapping => inputAsset ∈ mapping.set)
    .notSupportedAsset
  let mainnet ← okOrErr (mapping.set.find? fun asset => asset.chain = .ethereum) .notSupportedAsset
  let mainnetToken ← orErr (parseAssetId T mainnet)
  .ok ⟨BitVec.ofNat 256 request.value, depositor, recipient, destination, inputAsset, outputAsset,
    outputToken, mapping.capitalCost, mainnetToken⟩

end Route

/-! ## The message -/

/-- `unwrap_weth_calls`. -/
def unwrapWethCalls (wethContract : Address) (outputAmount : U256) (userAddress : Address)
    (userAmount : U256) (feeAddress : Address) (feeAmount : U256) : Except Failure (List Call) :=
  if feeAmount + userAmount = outputAmount then
    .ok [⟨wethContract, .withdraw outputAmount, 0⟩, ⟨userAddress, .empty, userAmount⟩,
      ⟨feeAddress, .empty, feeAmount⟩]
  else .error .panic

/-- `erc20_transfer_calls`. -/
def erc20TransferCalls (token userAddress : Address) (userAmount : U256) (feeAddress : Address)
    (feeAmount : U256) : List Call :=
  [⟨token, .transfer userAddress userAmount, 0⟩, ⟨token, .transfer feeAddress feeAmount, 0⟩]

/-- The calls of a message: a native asset arrives as its wrapped token and is unwrapped. -/
def payoutCalls (originalOutputAsset : AssetId) (outputToken : Address) (amount : U256)
    (userAddress : Address) (userAmount : U256) (feeAddress : Address) (feeAmount : U256) :
    Except Failure (List Call) :=
  if originalOutputAsset.isNative then
    unwrapWethCalls outputToken amount userAddress userAmount feeAddress feeAmount
  else .ok (erc20TransferCalls outputToken userAddress userAmount feeAddress feeAmount)

/-- The referral fee on an amount. -/
def referralFeeOf (amount : U256) (bps : UInt32) : U256 :=
  if bps = 0 then 0 else amount * BitVec.ofNat 256 bps.toNat / BitVec.ofNat 256 10000

/-- `message_for_multicall_handler`. -/
def messageForMulticallHandler (T : Tables) (amount : U256) (originalOutputAsset : AssetId)
    (outputToken userAddress : Address) (outputChain : Chain) (referralFee : ReferralFee) :
    Except Failure (Option Instructions × U256) :=
  if referralFee.bps = 0 then .ok (none, 0)
  else do
    let feeAddress ← orErr (parseAddress T outputChain referralFee.address)
    let feeAmount := amount * BitVec.ofNat 256 referralFee.bps.toNat / BitVec.ofNat 256 10000
    let userAmount := amount - feeAmount
    let calls ← payoutCalls originalOutputAsset outputToken amount userAddress userAmount
      feeAddress feeAmount
    .ok (some ⟨calls, userAddress⟩, feeAmount)

/-! ## The pool and the destination -/

section Quote

variable (T : Tables) (N : Network)

/-- What the pool reported. -/
structure PoolInfo where
  utilBefore : ℤ
  utilAfter : ℤ
  timestamp : UInt32
  rateModel : RateModel
  prices : List CallResult

/-- Whether the price of the gas token is asked for on Ethereum. -/
def includeGasTokenPrice (request : QuoteRequest) : Bool :=
  !request.toAsset.isNative && decide (request.toAsset.chain ≠ .monad)

/-- `decoded_current_time`. -/
def decodedCurrentTime (result : CallResult) : Except SwapperError UInt32 := do
  let value ← result.asUint
  if value.toNat < 2 ^ 32 then .ok (UInt32.ofNat value.toNat)
  else .error (.computeQuoteError "decode current time failed")

/-- The part of `get_quote` that asks Ethereum. -/
def queryPool (request : QuoteRequest) (route : RouteInfo) : Except Failure PoolInfo := do
  let results ← orErr (N.hubPool route.mainnetToken route.fromAmount (includeGasTokenPrice request))
  match results with
  | paused :: _ :: pooledToken :: before :: after :: currentTime :: prices => do
    if prices.length ≠ (includeGasTokenPrice request).toNat then .error (.err .noQuoteAvailable)
    let isPaused ← orErr paused.asBool
    if isPaused then .error (.err (.computeQuoteError "Across protocol is paused"))
    let liquidReserves ← orErr pooledToken.asLiquidReserves
    if liquidReserves < route.fromAmount then
      .error (.err (.computeQuoteError "Bridge amount is too large"))
    let utilBefore ← orErr before.asUint
    let utilAfter ← orErr after.asUint
    let timestamp ← orErr (decodedCurrentTime currentTime)
    let rateModel ← orErr (N.rateModel route.mainnetToken route.inputAsset route.outputAsset)
    .ok ⟨utilBefore.toNat, utilAfter.toNat, timestamp, rateModel, prices⟩
  | _ => .error (.err .noQuoteAvailable)

/-- `DestinationGas`. -/
structure DestinationGas where
  limit : U256
  price : U256
  gasTokenUsdPrice : Option ℤ

/-- `DEFAULT_FILL_GAS_LIMIT`, three times that on Monad. -/
def defaultFillGasLimit (chain : Chain) : U256 :=
  if chain = .monad then BitVec.ofNat 256 (120000 * 3) else BitVec.ofNat 256 120000

/-- `get_destination_gas`. -/
def getDestinationGas (chain : Chain) (limitRequest : FillGasRequest)
    (includeGasTokenPrice : Bool) : Except Failure DestinationGas := do
  let results ← orErr (N.destination chain limitRequest includeGasTokenPrice)
  match results with
  | limitResult :: priceResult :: rest => do
    let limit := limitResult.asGas.toOption.getD (defaultFillGasLimit chain)
    let price ← orErr priceResult.asGas
    if includeGasTokenPrice then do
      let result ← okOrErr rest.head? .noQuoteAvailable
      let values ← orErr result.asMulticall
      let value ← okOrErr values.head? .noQuoteAvailable
      let answer ← orErr value.asAnswer
      .ok ⟨limit, price, some answer⟩
    else .ok ⟨limit, price, none⟩
  | _ => .error (.err .noQuoteAvailable)

/-- Who receives a relayed amount: the handler if there is a message for it. -/
def relayRecipient (recipient : Address) (message : Option Instructions)
    (deployment : AcrossDeployment) (chain : Chain) : Except Failure Address :=
  match message with
  | none => .ok recipient
  | some _ => orErr (parseAddress T chain deployment.multicallHandler)

/-- `fill_relay_gas_request`. -/
def fillRelayGasRequest (amount : U256) (isNative : Bool) (inputAsset : AssetId)
    (outputToken depositor recipient : Address) (message : Option Instructions)
    (deployment : AcrossDeployment) (chain : Chain) :
    Except Failure (FillGasRequest × V3RelayData) := do
  let recipient ← relayRecipient T recipient message deployment chain
  let inputToken ← tokenAddress T inputAsset
  let relayData : V3RelayData :=
    { depositor, recipient, inputToken, outputToken, message
      exclusiveRelayer := .zeros 20
      inputAmount := amount
      outputAmount := 100
      originChainId := deployment.chainId
      depositId := 2 ^ 32 - 1
      fillDeadline := 2 ^ 32 - 1
      exclusivityDeadline := 0 }
  .ok (⟨deployment.spokePool, if isNative then amount else 0, relayData, deployment.chainId⟩,
    relayData)

/-- `DEFAULT_FILL_TIMEOUT`: six hours. -/
def defaultFillTimeout : UInt32 := 60 * 60 * 6

/-! ## The quote -/

/-- The fees of the pool and the relayer on an amount. -/
def poolFees (route : RouteInfo) (pool : PoolInfo) (value : ℕ) : Except Failure (U256 × U256) := do
  let lpfeePercent ← LpFee.realizedLpFeePct pool.rateModel T.convertApyToWeeklyFee
    pool.utilBefore pool.utilAfter false
  let lpfee ← multiply route.fromAmount lpfeePercent route.capitalCost.decimals
  let relayerFeePercent ← capitalFeePercent value route.capitalCost
  let relayerFee ← multiply route.fromAmount relayerFeePercent route.capitalCost.decimals
  .ok (lpfee, relayerFee)

/-- The `gas_token_usd_price` of `get_quote`. -/
def gasTokenUsdPrice (request : QuoteRequest) (pool : PoolInfo) (gas : DestinationGas) :
    Except Failure (Option ℤ) :=
  if request.toAsset.isNative then .ok none
  else if request.toAsset.chain = .monad then do
    let price ← okOrErr gas.gasTokenUsdPrice .noQuoteAvailable
    .ok (some price)
  else do
    let result ← okOrErr pool.prices.head? .noQuoteAvailable
    let price ← orErr result.asAnswer
    .ok (some price)

/-- The part of `get_quote` that asks the destination: the relay data and the referral fee of
the message for what remains before the gas is paid, and the gas a fill with them takes. -/
def estimateFill (request : QuoteRequest) (route : RouteInfo) (referralConfig : ReferralFee)
    (remainAmount : U256) : Except Failure (V3RelayData × U256 × DestinationGas) := do
  let (message, referralFee) ← messageForMulticallHandler T remainAmount request.toAsset
    route.outputToken route.recipient request.toAsset.chain referralConfig
  let (gasLimitRequest, relayData) ← fillRelayGasRequest T route.fromAmount
    request.fromAsset.isNative route.inputAsset route.outputToken route.depositor route.recipient
    message route.destination request.toAsset.chain
  let gas ← getDestinationGas N request.toAsset.chain gasLimitRequest
    (!request.toAsset.isNative && decide (request.toAsset.chain = .monad))
  .ok (relayData, referralFee, gas)

/-- The `referral_config` of `get_quote`. -/
def referralConfig (request : QuoteRequest) : ReferralFee :=
  (T.referralFee request.toAsset.chain).getD ⟨"", 0⟩

/-- `Across::get_quote`. -/
def getQuote (request : QuoteRequest) : Except Failure Quote := do
  let route ← resolveRoute T request
  let pool ← queryPool N request route
  let (lpfee, relayerFee) ← poolFees T route pool request.value
  let remainAmount := route.fromAmount - lpfee - relayerFee
  let (relayData, referralFee, gas) ← estimateFill T N request route (referralConfig T request)
    remainAmount
  let price ← gasTokenUsdPrice request pool gas
  let gasFee ← gasFee gas.limit gas.price price route.capitalCost.decimals
  if remainAmount < gasFee then .error (.err (.inputAmountError none))
  else do
    let outputAmount := remainAmount - gasFee
    let toValue := outputAmount - referralFee
    -- The message is built once more, for what arrives; its referral fee is not looked at.
    let (message, _) ← messageForMulticallHandler T outputAmount request.toAsset
      route.outputToken route.recipient request.toAsset.chain (referralConfig T request)
    let routeData := { relayData with
      outputAmount, message, fillDeadline := pool.timestamp + defaultFillTimeout }
    .ok ⟨request.value, toValue.toNat, route.inputAsset, route.outputAsset, routeData⟩

/-! ## What the amounts are computed from -/

/-- What the amounts in a quote depend on. -/
structure QuoteInputs where
  fromAmount : U256
  recipient : Address
  lpfeePercent : ℤ
  relayerFeePercent : ℤ
  decimals : ℕ
  gasLimit : U256
  gasPrice : U256
  gasTokenPrice : Option ℤ
  bps : UInt32

/-- The inputs of the quote for a request: the amount, the two percentages, what the network
answered about gas and prices, and the referral rate. -/
def quoteInputs (request : QuoteRequest) : Except Failure QuoteInputs := do
  let route ← resolveRoute T request
  let pool ← queryPool N request route
  let lpfeePercent ← LpFee.realizedLpFeePct pool.rateModel T.convertApyToWeeklyFee
    pool.utilBefore pool.utilAfter false
  let relayerFeePercent ← capitalFeePercent request.value route.capitalCost
  let (lpfee, relayerFee) ← poolFees T route pool request.value
  let (_, _, gas) ← estimateFill T N request route (referralConfig T request)
    (route.fromAmount - lpfee - relayerFee)
  let gasTokenPrice ← gasTokenUsdPrice request pool gas
  .ok ⟨route.fromAmount, route.recipient, lpfeePercent, relayerFeePercent,
    route.capitalCost.decimals, gas.limit, gas.price, gasTokenPrice, (referralConfig T request).bps⟩

end Quote

end GemCore.Across
