import GemCore.Swapper.Types

/-!
# Quotes of THORChain

How the provider turns the answers of a THORChain node into a quote
(`swapper/src/thorchain/provider.rs`, `asset.rs`, `model.rs`). The node counts in units of eight
decimals, whatever the decimals of the asset. The text of an integer is read back as the integer, so
the integers stand for their texts.

## Main definitions

* `valueFrom`, `valueTo` — from the units of an asset to those of the node, and back.
* `checkMinimum` — the check of a minimum of the node.
* `getQuote` — `ThorChain::get_quote`.

## Main results

* `getQuote_eq_error` — where a minimum that a request is turned down with comes from.
-/

namespace GemCore.Thorchain

open Lib

/-! ## Units -/

/-- `THORCHAIN_DECIMALS`. -/
def thorchainDecimals : ℤ := 8

/-- `value_from`: the division of `BigInt` drops the fraction. -/
def valueFrom (value decimals : ℤ) : ℤ :=
  let diff := decimals - thorchainDecimals
  let factor : ℤ := 10 ^ diff.natAbs
  if 0 < diff then value.tdiv factor else value * factor

/-- `value_to`. -/
def valueTo (value decimals : ℤ) : ℤ :=
  let diff := decimals - thorchainDecimals
  let factor : ℤ := 10 ^ diff.natAbs
  if 0 < diff then value * factor else value.tdiv factor

/-! ## The node's answers -/

/-- `THORChainNetwork`. -/
inductive THORChainNetwork where
  | thorchain
  | mayachain
  deriving DecidableEq

/-- `THORChainAsset`, with the chain and the long name of its `ChainName`. -/
structure THORChainAsset where
  chain : Chain
  longName : String
  decimals : ℤ

/-- `InboundAddress`. -/
structure InboundAddress where
  chain : String
  halted : Bool
  globalTradingPaused : Bool
  chainTradingPaused : Bool
  dustThreshold : ℤ

/-- `InboundAddress::is_swap_available`. -/
def InboundAddress.isSwapAvailable (address : InboundAddress) : Bool :=
  !address.halted && !address.globalTradingPaused && !address.chainTradingPaused

/-- `QuoteSwapResponse`. -/
structure QuoteSwapResponse where
  expectedAmountOut : ℤ
  recommendedMinAmountIn : ℤ
  inboundAddress : Option String
  router : Option String

/-- What the node answers. -/
structure Answers where
  inboundAddresses : Except SwapperError (List InboundAddress)
  quote : Except SwapperError QuoteSwapResponse

/-- `inbound_address_for_asset`. -/
def inboundAddressForAsset (network : THORChainNetwork) (asset : THORChainAsset)
    (addresses : List InboundAddress) : Except SwapperError (Option InboundAddress) :=
  if network = .thorchain ∧ asset.chain = .thorchain then .ok none
  else okOr ((addresses.find? fun address => address.chain = asset.longName).map some)
    .invalidRoute

/-! ## The quote -/

/-- `DUST_THRESHOLD_MULTIPLIER`. -/
def dustThresholdMultiplier : ℤ := 2

/-- `min_value`. -/
def minValue (dustThreshold : ℤ) : ℤ := dustThreshold * dustThresholdMultiplier

/-- The check of a minimum of the node: it is compared in its units and reported in those of the
asset. -/
def checkMinimum (minimum value decimals : ℤ) : Except SwapperError Unit :=
  if value < minimum then .error (.inputAmountError (some (toString (valueTo minimum decimals))))
  else .ok ()

/-- The dust check of `get_quote`, for a request of `value` units of the asset. -/
def dustCheck (decimals dustThreshold : ℤ) (value : ℕ) : Except SwapperError Unit :=
  checkMinimum (minValue dustThreshold) (valueFrom value decimals) decimals

/-- The check of the recommended minimum of `get_quote`. -/
def recommendedCheck (decimals recommendedMinAmountIn : ℤ) (value : ℕ) : Except SwapperError Unit :=
  checkMinimum recommendedMinAmountIn (valueFrom value decimals) decimals

/-- `map_quote_error`: a minimum in an error of the node is reported in the units of the asset. A
text that is not a number is read as zero. -/
def mapQuoteError (parse : String → Option ℤ) (decimals : ℤ) : SwapperError → SwapperError
  | .inputAmountError (some min) =>
    .inputAmountError (some (toString (valueTo ((parse min).getD 0) decimals)))
  | other => other

/-- `THORCHAIN_INBOUND_ADDRESS`. -/
def thorchainInboundAddress : String := "thor1v8ppstuf6e3x0r4glqc68d5jqcs2tf38cg2q6y"

/-- `RouteData::get_inbound_address`. -/
def getInboundAddress (network : THORChainNetwork) (asset : THORChainAsset)
    (quoteInboundAddress : Option String) : Except SwapperError String :=
  if network = .thorchain ∧ asset.chain = .thorchain then .ok thorchainInboundAddress
  else okOr quoteInboundAddress .invalidRoute

/-- The tables and the number parser of the provider. -/
structure ThorchainLib where
  /-- `THORChainAsset::from_asset_id`. -/
  fromAssetId : THORChainNetwork → AssetId → Option THORChainAsset
  /-- `BigInt::from_str`. -/
  parse : String → Option ℤ

/-- `Quote`, with its route. -/
structure Quote where
  fromValue : ℕ
  toValue : ℕ
  routerAddress : Option String
  inboundAddress : String

/-- The dust check, if the asset has an inbound address. -/
def checkDust (decimals : ℤ) (address : Option InboundAddress) (value : ℕ) :
    Except SwapperError Unit :=
  match address with
  | some address => dustCheck decimals address.dustThreshold value
  | none => .ok ()

variable (lib : ThorchainLib) (network : THORChainNetwork)

/-- `ThorChain::get_quote`. -/
def getQuote (answers : Answers) (request : QuoteRequest) : Except SwapperError Quote := do
  let fromAsset ← okOr (lib.fromAssetId network request.fromAsset) .notSupportedAsset
  let toAsset ← okOr (lib.fromAssetId network request.toAsset) .notSupportedAsset
  let addresses ← answers.inboundAddresses
  let fromInbound ← inboundAddressForAsset network fromAsset addresses
  let toInbound ← inboundAddressForAsset network toAsset addresses
  if [fromInbound, toInbound].reduceOption.any fun address => !address.isSwapAvailable then
    .error .noQuoteAvailable
  else do
    checkDust fromAsset.decimals fromInbound request.value
    let quote ← answers.quote.mapError (mapQuoteError lib.parse fromAsset.decimals)
    recommendedCheck fromAsset.decimals quote.recommendedMinAmountIn request.value
    let inboundAddress ← getInboundAddress network fromAsset quote.inboundAddress
    .ok ⟨request.value, (valueTo quote.expectedAmountOut toAsset.decimals).natAbs, quote.router,
      inboundAddress⟩

lemma okOr_ne_error {α : Type} {o : Option α} {e e' : SwapperError} (h : e ≠ e') :
    okOr o e ≠ .error e' := by
  cases o with
  | none => exact fun heq => h (Except.error.inj heq)
  | some a => exact fun heq => nomatch heq

lemma inboundAddressForAsset_ne_minimum (asset : THORChainAsset) (addresses : List InboundAddress)
    (minimum : Option String) :
    inboundAddressForAsset network asset addresses ≠ .error (.inputAmountError minimum) := by
  unfold inboundAddressForAsset
  split_ifs
  · exact fun heq => nomatch heq
  · exact okOr_ne_error (by simp)

lemma getInboundAddress_ne_minimum (asset : THORChainAsset) (address minimum : Option String) :
    getInboundAddress network asset address ≠ .error (.inputAmountError minimum) := by
  unfold getInboundAddress
  split_ifs
  · exact fun heq => nomatch heq
  · exact okOr_ne_error (by simp)

/-- **Where a minimum comes from**: the dust check, the check of the recommended minimum, or the
node itself. -/
theorem getQuote_eq_error {answers : Answers} {request : QuoteRequest} {minimum : String}
    (hinbound : answers.inboundAddresses ≠ .error (.inputAmountError (some minimum)))
    (h : getQuote lib network answers request = .error (.inputAmountError (some minimum))) :
    ∃ asset, lib.fromAssetId network request.fromAsset = some asset ∧
      ((∃ dustThreshold, dustCheck asset.decimals dustThreshold request.value =
          .error (.inputAmountError (some minimum))) ∨
        (∃ quote, answers.quote = .ok quote ∧
          recommendedCheck asset.decimals quote.recommendedMinAmountIn request.value =
            .error (.inputAmountError (some minimum))) ∨
        ∃ error, answers.quote = .error error ∧
          mapQuoteError lib.parse asset.decimals error = .inputAmountError (some minimum)) := by
  unfold getQuote at h
  obtain ⟨fromAsset, hfrom, h⟩ := exists_of_bind_eq_error (okOr_ne_error (by simp)) h
  refine ⟨fromAsset, okOr_eq_ok_iff.mp hfrom, ?_⟩
  obtain ⟨toAsset, -, h⟩ := exists_of_bind_eq_error (okOr_ne_error (by simp)) h
  obtain ⟨addresses, -, h⟩ := exists_of_bind_eq_error hinbound h
  obtain ⟨fromInbound, -, h⟩ :=
    exists_of_bind_eq_error (inboundAddressForAsset_ne_minimum _ _ _ _) h
  obtain ⟨toInbound, -, h⟩ :=
    exists_of_bind_eq_error (inboundAddressForAsset_ne_minimum _ _ _ _) h
  split_ifs at h
  · cases h
  by_cases hdust : checkDust fromAsset.decimals fromInbound request.value =
      .error (.inputAmountError (some minimum))
  · left
    cases fromInbound with
    | none => cases hdust
    | some address => exact ⟨address.dustThreshold, hdust⟩
  obtain ⟨-, -, h⟩ := exists_of_bind_eq_error hdust h
  right
  cases hquote : answers.quote with
  | error e =>
    rw [hquote] at h
    exact .inr ⟨e, rfl, Except.error.inj h⟩
  | ok quote =>
    rw [hquote, mapError_ok, ok_bind] at h
    by_cases hmin : recommendedCheck fromAsset.decimals quote.recommendedMinAmountIn request.value =
        .error (.inputAmountError (some minimum))
    · exact .inl ⟨quote, rfl, hmin⟩
    · obtain ⟨-, -, h⟩ := exists_of_bind_eq_error hmin h
      obtain ⟨_, -, h⟩ :=
        exists_of_bind_eq_error (getInboundAddress_ne_minimum _ _ _ _) h
      cases h

end GemCore.Thorchain
