import GemCore.Primitives.Hex
import GemCore.Primitives.TransactionLoad
import GemCore.Primitives.U256
import GemCore.Lib.Result

/-!
# Swap providers

What the providers share: the request for a quote, and how it can fail. A provider returns a
`SwapperError` (`swapper/src/error.rs`) or panics; both mean that there is no quote.

## Main definitions

* `SwapperError` — the errors.
* `Failure` — an error or a panic.
* `Address`, `Eth` — addresses and how their texts are read.
* `QuoteRequest`, `ReferralFee` — a request, and the fee of a referrer.
-/

namespace GemCore

/-- `SwapperError`. -/
inductive SwapperError where
  | notSupportedChain
  | notSupportedAsset
  | noAvailableProvider
  | inputAmountError (minAmount : Option String)
  | invalidRoute
  | computeQuoteError (message : String)
  | transactionError (message : String)
  | noQuoteAvailable
  deriving DecidableEq

/-- Why a computation returned no value. -/
inductive Failure where
  | err (error : SwapperError)
  | panic
  deriving DecidableEq

/-- A fallible step of the source, seen as one that may also panic. -/
def orErr {α : Type} (x : Except SwapperError α) : Except Failure α := x.mapError .err

/-- `ok_or`. -/
def okOrErr {α : Type} (x : Option α) (error : SwapperError) : Except Failure α :=
  Lib.okOr x (.err error)

/-- A library call that panics where it has no value. -/
def orPanic {α : Type} (x : Option α) : Except Failure α := Lib.okOr x .panic

/-- `Address`. -/
abbrev Address : Type := Lib.FixedBytes 20

/-- The hex text of an address. -/
def hexAddress (text : String) : Option Address := do
  let bytes ← decodeHexPairs (dropHexMark text.toList)
  if h : bytes.length = 20 then some ⟨bytes, h⟩ else none

/-- `INVALID_ADDRESS`. -/
def invalidAddress : String := "Invalid address"

/-- `INVALID_AMOUNT`. -/
def invalidAmount : String := "Invalid amount"

/-- How texts become addresses: the parsers of the address libraries, and the wrapped native
token of each chain. -/
structure Eth where
  /-- `str::parse::<Address>`. -/
  parse : String → Option Address
  /-- `TronAddress::parse_hex_or_base58` and its account id. -/
  parseTron : String → Except SwapperError Address
  /-- `EVMChain::from_chain` and `weth_contract`. -/
  wethContract : Chain → Option String

/-- `eth_address::parse_str`. -/
def Eth.parseStr (eth : Eth) (text : String) : Except SwapperError Address :=
  Lib.okOr (eth.parse text) (.computeQuoteError (invalidAddress ++ ": " ++ text))

/-- `eth_address::convert_native_to_weth`. -/
def Eth.convertNativeToWeth (eth : Eth) (asset : AssetId) : Option AssetId :=
  if asset.isNative then (eth.wethContract asset.chain).map fun weth => ⟨asset.chain, some weth⟩
  else some asset

/-- `ReferralFee`. -/
structure ReferralFee where
  address : String
  bps : UInt32

/-- `QuoteRequest`. -/
structure QuoteRequest where
  fromAsset : AssetId
  toAsset : AssetId
  value : ℕ
  walletAddress : String
  destinationAddress : String

end GemCore
