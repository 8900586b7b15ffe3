import GemCore.Primitives.TransactionLoad

/-!
# How long a transaction may take on a chain

The two columns of the chain table (`primitives/src/chain_config.rs`) that the timeouts of
`primitives/src/chain_transaction_timeout.rs` are computed from, and those timeouts.

## Main definitions

* `Chain.chainType`, `Chain.blockTime` — the two columns.
* `swapTransactionTimeout` — the time after which a transaction counts as failed.
-/

namespace GemCore

/-- `ChainType`. -/
inductive ChainType where
  | bitcoin | ethereum | solana | cosmos | ton | tron | aptos | sui | xrp | near | stellar
  | algorand | polkadot | cardano | hyperCore

/-- `Chain::chain_type`. -/
def Chain.chainType : Chain → ChainType
  | .bitcoin | .bitcoinCash | .litecoin | .doge | .zcash => .bitcoin
  | .ethereum | .smartChain | .polygon | .arbitrum | .optimism | .base | .avalancheC
  | .opBNB | .fantom | .gnosis | .seiEvm | .manta | .blast | .zkSync | .linea | .mantle
  | .celo | .world | .sonic | .plasma | .abstract | .berachain | .ink | .unichain
  | .hyperliquid | .monad | .xLayer | .robinhood | .stable | .tempo => .ethereum
  | .solana => .solana
  | .thorchain | .mayachain | .cosmos | .osmosis | .celestia | .injective | .sei | .noble => .cosmos
  | .ton => .ton
  | .tron => .tron
  | .aptos => .aptos
  | .sui => .sui
  | .xrp => .xrp
  | .near => .near
  | .stellar => .stellar
  | .algorand => .algorand
  | .polkadot => .polkadot
  | .cardano => .cardano
  | .hyperCore => .hyperCore

/-- `Chain::block_time`, in milliseconds. -/
def Chain.blockTime : Chain → ℕ
  | .bitcoin | .bitcoinCash => 600000
  | .litecoin => 120000
  | .ethereum => 12000
  | .smartChain | .arbitrum | .opBNB | .fantom | .sei | .zkSync | .linea | .mantle | .celo
  | .near | .abstract | .ink | .unichain | .robinhood | .stable => 1000
  | .solana | .aptos | .sui | .sonic | .monad | .tempo => 500
  | .polygon | .tron => 3000
  | .thorchain | .optimism | .base | .avalancheC | .manta | .blast | .world | .plasma
  | .berachain | .hyperliquid | .hyperCore | .xLayer => 2000
  | .mayachain | .cosmos | .osmosis | .celestia | .injective | .noble | .stellar => 6000
  | .ton | .gnosis | .polkadot => 5000
  | .doge => 60000
  | .zcash => 75000
  | .xrp | .algorand => 4000
  | .seiEvm => 400
  | .cardano => 20000

/-- `chain_transaction_timeout`, in milliseconds. -/
def chainTransactionTimeout (chain : Chain) : ℕ :=
  match chain.chainType with
  | .bitcoin => 1209600000
  | .solana => chain.blockTime * 150
  | .ethereum => chain.blockTime * 120
  | _ => chain.blockTime * 600

/-- `DAY`, in milliseconds. -/
def dayMillis : ℕ := 86400000

/-- `swap_transaction_timeout`, in milliseconds. -/
def swapTransactionTimeout (sourceChain destinationChain : Chain) : ℕ :=
  if sourceChain = destinationChain then
    chainTransactionTimeout sourceChain
  else
    max ((chainTransactionTimeout sourceChain + chainTransactionTimeout destinationChain) * 3)
      dayMillis

end GemCore
