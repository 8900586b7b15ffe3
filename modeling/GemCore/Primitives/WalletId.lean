import Mathlib.Data.List.TakeDrop
import GemCore.Primitives.TransactionLoad

/-!
# Wallet ids

A wallet is named by its type, the chain of a single-chain wallet and an address
(`primitives/src/wallet_id.rs`, `wallet_type.rs`, `chain.rs`).

## Main definitions

* `WalletId` — the name of a wallet.
* `WalletId.id`, `WalletId.fromId` — its text, and reading it.
-/

namespace GemCore

/-- `Chain::as_ref`. -/
def Chain.asRef : Chain → String
  | .bitcoin => "bitcoin"
  | .bitcoinCash => "bitcoincash"
  | .litecoin => "litecoin"
  | .ethereum => "ethereum"
  | .smartChain => "smartchain"
  | .solana => "solana"
  | .polygon => "polygon"
  | .thorchain => "thorchain"
  | .mayachain => "mayachain"
  | .cosmos => "cosmos"
  | .osmosis => "osmosis"
  | .arbitrum => "arbitrum"
  | .ton => "ton"
  | .tron => "tron"
  | .doge => "doge"
  | .zcash => "zcash"
  | .optimism => "optimism"
  | .aptos => "aptos"
  | .base => "base"
  | .avalancheC => "avalanchec"
  | .sui => "sui"
  | .xrp => "xrp"
  | .opBNB => "opbnb"
  | .fantom => "fantom"
  | .gnosis => "gnosis"
  | .celestia => "celestia"
  | .injective => "injective"
  | .sei => "sei"
  | .seiEvm => "seievm"
  | .manta => "manta"
  | .blast => "blast"
  | .noble => "noble"
  | .zkSync => "zksync"
  | .linea => "linea"
  | .mantle => "mantle"
  | .celo => "celo"
  | .near => "near"
  | .world => "world"
  | .stellar => "stellar"
  | .sonic => "sonic"
  | .algorand => "algorand"
  | .polkadot => "polkadot"
  | .plasma => "plasma"
  | .cardano => "cardano"
  | .abstract => "abstract"
  | .berachain => "berachain"
  | .ink => "ink"
  | .unichain => "unichain"
  | .hyperliquid => "hyperliquid"
  | .hyperCore => "hypercore"
  | .monad => "monad"
  | .xLayer => "xlayer"
  | .robinhood => "robinhood"
  | .stable => "stable"
  | .tempo => "tempo"

/-- `Chain::iter`. -/
def Chain.all : List Chain :=
  [.bitcoin, .bitcoinCash, .litecoin, .ethereum, .smartChain, .solana, .polygon, .thorchain,
    .mayachain, .cosmos, .osmosis, .arbitrum, .ton, .tron, .doge, .zcash, .optimism, .aptos,
    .base, .avalancheC, .sui, .xrp, .opBNB, .fantom, .gnosis, .celestia, .injective, .sei,
    .seiEvm, .manta, .blast, .noble, .zkSync, .linea, .mantle, .celo, .near, .world, .stellar,
    .sonic, .algorand, .polkadot, .plasma, .cardano, .abstract, .berachain, .ink, .unichain,
    .hyperliquid, .hyperCore, .monad, .xLayer, .robinhood, .stable, .tempo]

/-- `Chain::from_str`. -/
def Chain.fromStr (text : String) : Option Chain := Chain.all.find? fun chain => chain.asRef == text

/-- `WalletType`. -/
inductive WalletType where
  | multicoin
  | single
  | privateKey
  | view
  deriving DecidableEq

/-- `WalletType::as_ref`. -/
def WalletType.asRef : WalletType → String
  | .multicoin => "multicoin"
  | .single => "single"
  | .privateKey => "privateKey"
  | .view => "view"

/-- `WalletType::from_str`. -/
def WalletType.fromStr (text : String) : Option WalletType :=
  [.multicoin, .single, .privateKey, .view].find? fun walletType => walletType.asRef == text

/-- `WalletId`. -/
inductive WalletId where
  | multicoin (address : String)
  | single (chain : Chain) (address : String)
  | privateKey (chain : Chain) (address : String)
  | view (chain : Chain) (address : String)
  deriving DecidableEq

/-- `WalletId::wallet_type`. -/
def WalletId.walletType : WalletId → WalletType
  | .multicoin _ => .multicoin
  | .single _ _ => .single
  | .privateKey _ _ => .privateKey
  | .view _ _ => .view

/-- `WalletId::id`. -/
def WalletId.id : WalletId → String
  | .multicoin address => "multicoin" ++ "_" ++ address
  | .single chain address => "single" ++ "_" ++ chain.asRef ++ "_" ++ address
  | .privateKey chain address => "privateKey" ++ "_" ++ chain.asRef ++ "_" ++ address
  | .view chain address => "view" ++ "_" ++ chain.asRef ++ "_" ++ address

/-- `str::split_once` at the first separator. -/
def splitOnce (text : List Char) : Option (List Char × List Char) :=
  match text.span (· ≠ '_') with
  | (_, []) => none
  | (before, _ :: after) => some (before, after)

/-- `WalletId::from_id`. -/
def WalletId.fromId (id : String) : Option WalletId := do
  let (walletType, rest) ← splitOnce id.toList
  match ← WalletType.fromStr (String.ofList walletType) with
  | .multicoin => some (.multicoin (String.ofList rest))
  | walletType => do
    let (chain, address) ← splitOnce rest
    let chain ← Chain.fromStr (String.ofList chain)
    match walletType with
    | .single => some (.single chain (String.ofList address))
    | .privateKey => some (.privateKey chain (String.ofList address))
    | _ => some (.view chain (String.ofList address))

/-- A text is split at its first separator. -/
lemma splitOnce_append {before after : List Char} (h : '_' ∉ before) :
    splitOnce (before ++ '_' :: after) = some (before, after) := by
  have hspan : (before ++ '_' :: after).span (· ≠ '_') = (before, '_' :: after) := by
    rw [List.span_eq_takeWhile_dropWhile]
    have hall : ∀ c ∈ before, decide (c ≠ '_') = true := by
      intro c hc
      refine decide_eq_true ?_
      rintro rfl
      exact h hc
    rw [List.takeWhile_append_of_pos hall, List.dropWhile_append_of_pos hall]
    simp
  rw [splitOnce, hspan]

/-- The name of a chain has no separator in it. -/
lemma Chain.separator_notMem_asRef (chain : Chain) : '_' ∉ chain.asRef.toList := by
  cases chain <;> decide

lemma Chain.fromStr_asRef (chain : Chain) : Chain.fromStr chain.asRef = some chain := by
  cases chain <;> decide

/-- A wallet id is read back from its text. -/
@[simp] lemma WalletId.fromId_id (id : WalletId) : WalletId.fromId id.id = some id := by
  have chained : ∀ (walletType : String) (chain : Chain) (address : String),
      '_' ∉ walletType.toList →
      splitOnce (walletType ++ "_" ++ chain.asRef ++ "_" ++ address).toList =
        some (walletType.toList, chain.asRef.toList ++ '_' :: address.toList) := by
    intro walletType chain address h
    have htext : (walletType ++ "_" ++ chain.asRef ++ "_" ++ address).toList =
        walletType.toList ++ '_' :: (chain.asRef.toList ++ '_' :: address.toList) := by
      simp
    rw [htext, splitOnce_append h]
  have plain : ∀ address : String,
      splitOnce ("multicoin" ++ "_" ++ address).toList =
        some ("multicoin".toList, address.toList) := by
    intro address
    have htext : ("multicoin" ++ "_" ++ address).toList =
        "multicoin".toList ++ '_' :: address.toList := by
      simp
    rw [htext, splitOnce_append (by decide)]
  have read : ∀ walletType : WalletType,
      WalletType.fromStr (String.ofList walletType.asRef.toList) = some walletType := by
    intro walletType
    cases walletType <;> decide
  cases id with
  | multicoin address =>
    rw [WalletId.fromId, WalletId.id, plain]
    simp [show WalletType.fromStr "multicoin" = some .multicoin from read .multicoin]
  | single chain address =>
    rw [WalletId.fromId, WalletId.id, chained "single" chain address (by decide)]
    simp [show WalletType.fromStr "single" = some .single from read .single,
      splitOnce_append chain.separator_notMem_asRef, Chain.fromStr_asRef]
  | privateKey chain address =>
    rw [WalletId.fromId, WalletId.id, chained "privateKey" chain address (by decide)]
    simp [show WalletType.fromStr "privateKey" = some .privateKey from read .privateKey,
      splitOnce_append chain.separator_notMem_asRef, Chain.fromStr_asRef]
  | view chain address =>
    rw [WalletId.fromId, WalletId.id, chained "view" chain address (by decide)]
    simp [show WalletType.fromStr "view" = some .view from read .view,
      splitOnce_append chain.separator_notMem_asRef, Chain.fromStr_asRef]

/-- Different wallets have different texts. -/
lemma WalletId.id_injective {a b : WalletId} (h : a.id = b.id) : a = b := by
  have hread := congrArg WalletId.fromId h
  simpa using hread

/-- There is a separator in the text of a wallet id. -/
lemma WalletId.separator_mem_id (id : WalletId) : '_' ∈ id.id.toList := by
  cases id <;> simp [WalletId.id]

end GemCore
