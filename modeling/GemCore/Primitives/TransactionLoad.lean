import GemCore.Primitives.SignerError

/-!
# What a transaction is loaded with

The request a signer or planner works from (`primitives/src/transaction_input_type.rs`,
`transaction_load_metadata.rs`, `asset_id.rs`), with the fields the modelled signers read.

## Main definitions

* `TransactionLoadInput` — the request.
* `TransactionLoadMetadata` — what the chain reported for it.
-/

namespace GemCore

/-- `Chain`. -/
inductive Chain where
  | bitcoin | bitcoinCash | litecoin | ethereum | smartChain | solana | polygon | thorchain
  | mayachain | cosmos | osmosis | arbitrum | ton | tron | doge | zcash | optimism | aptos
  | base | avalancheC | sui | xrp | opBNB | fantom | gnosis | celestia | injective | sei
  | seiEvm | manta | blast | noble | zkSync | linea | mantle | celo | near | world | stellar
  | sonic | algorand | polkadot | plasma | cardano | abstract | berachain | ink | unichain
  | hyperliquid | hyperCore | monad | xLayer | robinhood | stable | tempo
  deriving DecidableEq

/-- `AssetId`. -/
structure AssetId where
  chain : Chain
  tokenId : Option String
  deriving DecidableEq

/-- `AssetId::is_native`. -/
def AssetId.isNative (asset : AssetId) : Bool := asset.tokenId.isNone

/-- `SwapQuoteData`: where the swap is paid to and its memo. -/
structure SwapQuoteData where
  «to» : String
  memo : Option String

/-- `TransactionInputType`. The kinds no modelled signer accepts are `other`. -/
inductive TransactionInputType where
  | transfer (asset : AssetId)
  | swap (fromAsset toAsset : AssetId) (data : SwapQuoteData)
  | other

/-- `TransactionLoadMetadata`, as far as it has unspent outputs or a block number:
`blockNumberOnly` stands for the Polkadot, Tron and Xrp kinds, `other` for those with
neither. -/
inductive TransactionLoadMetadata where
  | bitcoin (utxos : List UTXO)
  | zcash (utxos : List UTXO)
  | cardano (utxos : List UTXO) (blockNumber : ℕ)
  | blockNumberOnly (blockNumber : ℕ)
  | other

/-- `TransactionLoadMetadata::get_utxos`. -/
def TransactionLoadMetadata.getUtxos : TransactionLoadMetadata → Except SignerError (List UTXO)
  | bitcoin utxos | zcash utxos | cardano utxos _ => .ok utxos
  | blockNumberOnly _ | other =>
    .error (.invalidInput "UTXOs not available for this metadata type")

/-- `TransactionLoadMetadata::get_block_number`. -/
def TransactionLoadMetadata.getBlockNumber : TransactionLoadMetadata → Except SignerError ℕ
  | cardano _ blockNumber | blockNumberOnly blockNumber => .ok blockNumber
  | bitcoin _ | zcash _ | other =>
    .error (.invalidInput "Block number not available for this metadata type")

/-- `TransactionLoadInput`. The value is unbounded. -/
structure TransactionLoadInput where
  inputType : TransactionInputType
  senderAddress : String
  destinationAddress : String
  value : ℕ
  memo : Option String
  isMaxValue : Bool
  metadata : TransactionLoadMetadata

/-- `TransactionLoadInput::get_memo`: an empty memo is none. -/
def TransactionLoadInput.getMemo (input : TransactionLoadInput) : Option String :=
  input.memo.filter fun memo => memo.toList ≠ []

/-- `TransactionLoadInput::value_as_u64`. -/
def TransactionLoadInput.valueAsU64 (input : TransactionLoadInput) : Except SignerError ℕ :=
  if input.value < u64Size then .ok input.value
  else .error (.invalidInput "transaction amount is too large")

end GemCore
