import GemCore.Keystore.CrashSafety
import GemCore.Across.Accounting
import GemCore.Uniswap.Delivery
import GemCore.Stream.Subscription
import GemCore.Alien.Coalescing
import GemCore.Eip712.Document
import GemCore.Eip712.Agreement
import GemCore.TransactionState.Coverage
import GemCore.WalletService.Consistency
import GemCore.Dynode.Transparency
import GemCore.Dynode.Failover
import GemCore.WalletConnect.Requests
import GemCore.Perpetual.Convergence
import GemCore.Tron.Agreement
import GemCore.Bitcoin.Fewest
import GemCore.Cardano.Canonical
import GemCore.Cardano.Conservation
import GemCore.Xrp.Amount
import GemCore.Primitives.PaymentAmount
import GemCore.Swapper.Minimum
import GemCore.Polkadot.Decoding
import GemCore.Algorand.Canonical
import GemCore.Swapper.Stonfi
import GemCore.Tron.Votes
import GemCore.Swapper.RouteCache
import GemCore.Tron.Fees
import GemCore.Subscription.Changes
import GemCore.Ton.AddressForms
import GemCore.Stellar.Exact
import GemCore.Transfer.Screen
import GemCore.Sui.ReplayPromise
import GemCore.Dynode.CacheRuns
import GemCore.Perpetual.Subscriptions
import GemCore.Rewards.Evidence
import GemCore.Solana.SimpleTransfer
import GemCore.Aptos.ArgumentMeaning
import GemCore.Ton.Network
import GemCore.Keystore.Binding
import GemCore.WalletConnect.TransferData
import GemCore.Across.FeeBounds
import GemCore.NumberFormatter.ValueFormatter
import GemCore.Sui.TransferExecution
import GemCore.Cetus.Settlement
import GemCore.Daemon.Parser
