import Mathlib.Data.String.Basic
import GemCore.Lib.AssocMap
import GemCore.WalletService.Registry

/-!
# What the subscriptions of a device lack

`gemstone/src/services/subscription/rules.rs`: the subscriptions the wallets of a device call for
are compared with the ones the server has, wallet by wallet and chain by chain, and what is missing
is added, what is too much deleted.

## Main definitions

* `walletSubscriptions` — the subscriptions that wallets call for.
* `subscriptionChanges` — what to add and what to delete.
* `applied` — the relation of wallets and chains after the changes.

## Main results

* `mem_toAdd_iff`, `mem_toDelete_iff` — what is added and what is deleted: each side is compared
  with the last entry of the wallet on the other side.
* `converges_iff` — one round makes both sides agree exactly if the last entry of each wallet speaks
  for its other entries.
* `addressed_walletSubscriptions` — what a device asks for are its accounts, each chain once under
  its address.
-/

namespace GemCore.Subscription

open Lib (AssocMap)
open WalletService (Wallet WalletSource)

/-! ## The code -/

/-- `BTreeSet<Chain>`: the chains in the order of their declaration, each once. -/
def chainSet (chains : List Chain) : List Chain := Chain.all.filter (· ∈ chains)

/-- `AddressChains`. -/
structure AddressChains where
  address : String
  chains : List Chain
  deriving DecidableEq

/-- `AddressChains::new`. -/
def AddressChains.new (address : String) (chains : List Chain) : AddressChains where
  address := address
  chains := chainSet chains

/-- `WalletSubscription`. -/
structure WalletSubscription where
  walletId : WalletId
  source : Option WalletSource
  subscriptions : List AddressChains
  deriving DecidableEq

/-- `WalletSubscriptionChains`. -/
structure WalletSubscriptionChains where
  walletId : WalletId
  chains : List Chain

/-- `SubscriptionChanges`. -/
structure SubscriptionChanges where
  toAdd : List WalletSubscription
  toDelete : List WalletSubscriptionChains

/-- `SubscriptionChanges::is_empty`. -/
def SubscriptionChanges.isEmpty (changes : SubscriptionChanges) : Bool :=
  changes.toAdd.isEmpty && changes.toDelete.isEmpty

/-- `chains_by_address.entry(address).or_default().insert(chain)`, of a `BTreeMap` with its entries
in the order of their keys. -/
def insertChain (address : String) (chain : Chain) :
    List (String × List Chain) → List (String × List Chain)
  | [] => [(address, chainSet [chain])]
  | (other, chains) :: rest =>
    if address < other then (address, chainSet [chain]) :: (other, chains) :: rest
    else if address = other then (other, chainSet (chain :: chains)) :: rest
    else (other, chains) :: insertChain address chain rest

/-- `chains_by_address`, once the loop is through the accounts. -/
def chainsByAddress (wallet : Wallet) : List (String × List Chain) :=
  wallet.accounts.foldl (fun entries account => insertChain account.address account.chain entries) []

/-- `Wallet::address_chains`. -/
def addressChains (wallet : Wallet) : List AddressChains :=
  (chainsByAddress wallet).map fun entry => .new entry.1 entry.2

/-- `wallet_subscriptions`. -/
def walletSubscriptions (wallets : List Wallet) : List WalletSubscription :=
  wallets.map fun wallet =>
    { walletId := wallet.id, source := some wallet.source, subscriptions := addressChains wallet }

/-- The chains of a local wallet, over all its addresses. -/
def WalletSubscription.chains (wallet : WalletSubscription) : List Chain :=
  wallet.subscriptions.flatMap (·.chains)

/-- The chains of one address that the server does not know. -/
def missingOf (known : Option (List Chain)) (address : AddressChains) : Option AddressChains :=
  let chains := address.chains.filter fun chain => !known.any (·.contains chain)
  if chains.isEmpty then none else some (.new address.address chains)

/-- What is to be added of one local wallet. -/
def additionOf (known : Option (List Chain)) (wallet : WalletSubscription) :
    Option WalletSubscription :=
  let subscriptions := wallet.subscriptions.filterMap (missingOf known)
  if subscriptions.isEmpty then none else some { wallet with subscriptions }

/-- What is to be deleted of one remote wallet: all of it where there is no local one. -/
def deletionOf (wanted : Option (List Chain)) (wallet : WalletSubscriptionChains) :
    Option WalletSubscriptionChains :=
  match wanted with
  | none => some wallet
  | some wanted =>
    let chains := chainSet (wallet.chains.filter fun chain => !wanted.contains chain)
    if chains.isEmpty then none else some { wallet with chains }

/-- The chains of each wallet, under the text of its id: of two entries of one wallet the later
one is kept. -/
def chainsById {α : Type} (walletId : α → WalletId) (chains : α → List Chain) (wallets : List α) :
    AssocMap String (List Chain) :=
  .collect (wallets.map fun wallet => ((walletId wallet).id, chainSet (chains wallet)))

/-- `remote_chains`. -/
def remoteChains (remote : List WalletSubscriptionChains) : AssocMap String (List Chain) :=
  chainsById (·.walletId) (·.chains) remote

/-- `local_chains`. -/
def localChains (locals : List WalletSubscription) : AssocMap String (List Chain) :=
  chainsById (·.walletId) (·.chains) locals

/-- `subscription_changes`. -/
def subscriptionChanges (locals : List WalletSubscription)
    (remote : List WalletSubscriptionChains) : SubscriptionChanges where
  toAdd := locals.filterMap fun wallet =>
    additionOf (AList.lookup wallet.walletId.id (remoteChains remote)) wallet
  toDelete := remote.filterMap fun wallet =>
    deletionOf (AList.lookup wallet.walletId.id (localChains locals)) wallet

/-! ## Wallets and chains -/

/-- The wallets with their chains, of the device. -/
def localRelation (locals : List WalletSubscription) : Set (WalletId × Chain) :=
  {pair | ∃ wallet ∈ locals, wallet.walletId = pair.1 ∧ pair.2 ∈ wallet.chains}

/-- The wallets with their chains, of the server. -/
def remoteRelation (remote : List WalletSubscriptionChains) : Set (WalletId × Chain) :=
  {pair | ∃ wallet ∈ remote, wallet.walletId = pair.1 ∧ pair.2 ∈ wallet.chains}

/-- A wallet has a chain under an address. -/
def Addressed (locals : List WalletSubscription) (id : WalletId) (address : String)
    (chain : Chain) : Prop :=
  ∃ wallet ∈ locals, wallet.walletId = id ∧
    ∃ entry ∈ wallet.subscriptions, entry.address = address ∧ chain ∈ entry.chains

/-- What the server has once the deletions and then the additions are applied. -/
def applied (remote : List WalletSubscriptionChains) (changes : SubscriptionChanges) :
    Set (WalletId × Chain) :=
  (remoteRelation remote \ remoteRelation changes.toDelete) ∪ localRelation changes.toAdd

/-- The server lists a relation: each wallet that has a chain once, in any order. -/
structure Lists (result : List WalletSubscriptionChains) (relation : Set (WalletId × Chain)) :
    Prop where
  nodup : (result.map (·.walletId)).Nodup
  nonempty : ∀ wallet ∈ result, wallet.chains ≠ []
  relation : remoteRelation result = relation

/-- One round makes the server agree with the device: it has the wallets and chains of the device,
with the addresses of the device where a chain is added, no chain is added and deleted, none that
both have is touched, and another round finds nothing to do. -/
structure Converges (locals : List WalletSubscription)
    (remote : List WalletSubscriptionChains) : Prop where
  applied_eq : applied remote (subscriptionChanges locals remote) = localRelation locals
  addresses : ∀ id chain, (id, chain) ∈ localRelation (subscriptionChanges locals remote).toAdd →
    ∀ address, Addressed (subscriptionChanges locals remote).toAdd id address chain ↔
      Addressed locals id address chain
  disjoint : ∀ pair, pair ∈ localRelation (subscriptionChanges locals remote).toAdd →
    pair ∉ remoteRelation (subscriptionChanges locals remote).toDelete
  untouched : ∀ pair, pair ∈ localRelation locals → pair ∈ remoteRelation remote →
    pair ∉ localRelation (subscriptionChanges locals remote).toAdd ∧
      pair ∉ remoteRelation (subscriptionChanges locals remote).toDelete
  stable : ∀ result, Lists result (applied remote (subscriptionChanges locals remote)) →
    (subscriptionChanges locals result).isEmpty = true

/-- The last entry of its wallet in a list. -/
def IsLast {α : Type} (walletId : α → WalletId) (wallets : List α) (wallet : α) : Prop :=
  ∃ before after, wallets = before ++ wallet :: after ∧
    ∀ later ∈ after, walletId later ≠ walletId wallet

/-- The last entry of each wallet speaks for the others: the last one of the device lists every
chain of the wallet, the last one of the server every chain that both sides have. -/
structure LastEntriesSpeak (locals : List WalletSubscription)
    (remote : List WalletSubscriptionChains) : Prop where
  ofLocals : ∀ wallet, IsLast (·.walletId) locals wallet → ∀ chain,
    (wallet.walletId, chain) ∈ localRelation locals → chain ∈ wallet.chains
  ofRemote : ∀ wallet, IsLast (·.walletId) remote wallet → ∀ chain,
    (wallet.walletId, chain) ∈ localRelation locals →
      (wallet.walletId, chain) ∈ remoteRelation remote → chain ∈ wallet.chains

/-! ## What is looked up -/

lemma mem_all (chain : Chain) : chain ∈ Chain.all := by
  cases chain <;> decide

@[simp] lemma mem_chainSet {chains : List Chain} {chain : Chain} :
    chain ∈ chainSet chains ↔ chain ∈ chains := by
  simp [chainSet, mem_all]

section Lookup

variable {α : Type} {walletId : α → WalletId} {chains : α → List Chain} {wallets : List α}

/-- The map holds the chains of the last entry. -/
lemma lookup_chainsById {id : WalletId} {found : List Chain} :
    AList.lookup id.id (chainsById walletId chains wallets) = some found ↔
      ∃ wallet, IsLast walletId wallets wallet ∧ walletId wallet = id ∧
        chainSet (chains wallet) = found := by
  rw [chainsById, AssocMap.lookup_collect_eq_some_iff]
  constructor
  · rintro ⟨before, after, heq, hnot⟩
    obtain ⟨before, rest, rfl, -, hrest⟩ := List.map_eq_append_iff.mp heq
    obtain ⟨wallet, after, rfl, hpair, rfl⟩ := List.map_eq_cons_iff.mp hrest
    obtain ⟨hid, hchains⟩ := Prod.mk.inj hpair
    refine ⟨wallet, ⟨before, after, rfl, fun later hlater hsame => hnot ?_⟩,
      WalletId.id_injective hid, hchains⟩
    rw [List.map_map]
    exact List.mem_map.mpr ⟨later, hlater, (congrArg WalletId.id hsame).trans hid⟩
  · rintro ⟨wallet, ⟨before, after, rfl, hlater⟩, rfl, rfl⟩
    refine ⟨_, _, by rw [List.map_append, List.map_cons], ?_⟩
    rw [List.map_map]
    intro hmem
    obtain ⟨later, hmem, hid⟩ := List.mem_map.mp hmem
    exact hlater later hmem (WalletId.id_injective hid)

/-- A wallet without an entry is not in the map. -/
lemma lookup_chainsById_eq_none {id : WalletId} :
    AList.lookup id.id (chainsById walletId chains wallets) = none ↔
      ∀ wallet ∈ wallets, walletId wallet ≠ id := by
  rw [← Option.not_isSome_iff_eq_none, chainsById, AssocMap.lookup_collect_isSome, List.map_map,
    List.mem_map]
  push Not
  refine forall₂_congr fun wallet _ => not_congr ⟨fun h => WalletId.id_injective h, fun h => ?_⟩
  rw [← h]
  rfl

/-- Whether a wallet has a chain in the map, by its last entry. -/
lemma any_lookup_chainsById {id : WalletId} {chain : Chain} :
    (AList.lookup id.id (chainsById walletId chains wallets)).any (·.contains chain) = true ↔
      ∃ wallet, IsLast walletId wallets wallet ∧ walletId wallet = id ∧ chain ∈ chains wallet := by
  rw [Option.any_eq_true]
  constructor
  · rintro ⟨found, hfound, hmem⟩
    obtain ⟨wallet, hlast, hid, rfl⟩ := lookup_chainsById.mp hfound
    exact ⟨wallet, hlast, hid, mem_chainSet.mp (List.contains_iff_mem.mp hmem)⟩
  · rintro ⟨wallet, hlast, hid, hmem⟩
    exact ⟨_, lookup_chainsById.mpr ⟨wallet, hlast, hid, rfl⟩,
      List.contains_iff_mem.mpr (mem_chainSet.mpr hmem)⟩

/-- The last entry of a wallet is one entry. -/
lemma IsLast.chains_eq {a b : α} (ha : IsLast walletId wallets a)
    (hb : IsLast walletId wallets b) (h : walletId a = walletId b) {chain : Chain} :
    chain ∈ chains a ↔ chain ∈ chains b := by
  have hlookup_a : AList.lookup (walletId a).id (chainsById walletId chains wallets) =
      some (chainSet (chains a)) := lookup_chainsById.mpr ⟨a, ha, rfl, rfl⟩
  have hlookup_b : AList.lookup (walletId a).id (chainsById walletId chains wallets) =
      some (chainSet (chains b)) := lookup_chainsById.mpr ⟨b, hb, h.symm, rfl⟩
  rw [← mem_chainSet, Option.some.inj (hlookup_a.symm.trans hlookup_b), mem_chainSet]

/-- Where no wallet stands twice, the last entry is the only one. -/
lemma IsLast.eq_of_nodup {a b : α} (h : IsLast walletId wallets a)
    (hnodup : (wallets.map walletId).Nodup) (hb : b ∈ wallets) (hid : walletId b = walletId a) :
    b = a := by
  obtain ⟨before, after, rfl, -⟩ := h
  exact List.inj_on_of_nodup_map hnodup hb (by simp) hid

/-- A listed wallet has a last entry. -/
lemma exists_isLast (walletId : α → WalletId) {wallet : α} (h : wallet ∈ wallets) :
    ∃ last ∈ wallets, IsLast walletId wallets last ∧ walletId last = walletId wallet := by
  cases hlookup : AList.lookup (walletId wallet).id
      (chainsById walletId (fun _ => []) wallets) with
  | none => exact absurd rfl (lookup_chainsById_eq_none.mp hlookup wallet h)
  | some found =>
    obtain ⟨last, ⟨before, after, rfl, hlater⟩, hid, -⟩ := lookup_chainsById.mp hlookup
    exact ⟨last, by simp, ⟨before, after, rfl, hlater⟩, hid⟩

end Lookup

/-! ## What is added and what is deleted -/

variable {locals : List WalletSubscription} {remote : List WalletSubscriptionChains}
  {id : WalletId} {chain : Chain}

/-- A chain of the device stands under some address. -/
lemma mem_localRelation_iff :
    (id, chain) ∈ localRelation locals ↔ ∃ address, Addressed locals id address chain := by
  simp only [localRelation, Addressed, WalletSubscription.chains, Set.mem_ofPred_eq,
    List.mem_flatMap]
  constructor
  · rintro ⟨wallet, hwallet, hid, entry, hentry, hchain⟩
    exact ⟨entry.address, wallet, hwallet, hid, entry, hentry, rfl, hchain⟩
  · rintro ⟨address, wallet, hwallet, hid, entry, hentry, -, hchain⟩
    exact ⟨wallet, hwallet, hid, entry, hentry, hchain⟩

/-- What is left of an address. -/
lemma missingOf_eq_some_iff {known : Option (List Chain)} {address missing : AddressChains} :
    missingOf known address = some missing ↔
      (∃ chain ∈ address.chains, known.any (·.contains chain) = false) ∧
        AddressChains.new address.address
          (address.chains.filter fun chain => !known.any (·.contains chain)) = missing := by
  rw [missingOf]
  split
  case isTrue hempty =>
    constructor
    · intro h
      cases h
    · rintro ⟨⟨chain, hmem, hnot⟩, -⟩
      have hnil := List.filter_eq_nil_iff.mp (List.isEmpty_iff.mp hempty) chain hmem
      rw [hnot] at hnil
      exact absurd rfl hnil
  case isFalse hempty =>
    rw [Option.some.injEq]
    refine ⟨fun h => ⟨?_, h⟩, And.right⟩
    obtain ⟨chain, hchain⟩ := List.exists_mem_of_ne_nil _ fun h => hempty (List.isEmpty_iff.mpr h)
    obtain ⟨hmem, hnot⟩ := List.mem_filter.mp hchain
    exact ⟨chain, hmem, by simpa using hnot⟩

/-- What is added of a wallet. -/
lemma additionOf_eq_some_iff {known : Option (List Chain)} {wallet added : WalletSubscription} :
    additionOf known wallet = some added ↔
      wallet.subscriptions.filterMap (missingOf known) ≠ [] ∧
        { wallet with subscriptions := wallet.subscriptions.filterMap (missingOf known) } =
          added := by
  rw [additionOf]
  split
  case isTrue hempty => simp [List.isEmpty_iff.mp hempty]
  case isFalse hempty => simp [mt List.isEmpty_iff.mpr hempty]

/-- A chain of an address is left exactly if it is not known. -/
lemma mem_filterMap_missingOf {known : Option (List Chain)} {entries : List AddressChains}
    {address : String} :
    (∃ entry ∈ entries.filterMap (missingOf known), entry.address = address ∧
        chain ∈ entry.chains) ↔
      (∃ entry ∈ entries, entry.address = address ∧ chain ∈ entry.chains) ∧
        known.any (·.contains chain) = false := by
  constructor
  · rintro ⟨missing, hmem, rfl, hchain⟩
    obtain ⟨entry, hentry, hmissing⟩ := List.mem_filterMap.mp hmem
    obtain ⟨-, rfl⟩ := missingOf_eq_some_iff.mp hmissing
    obtain ⟨hchain, hnot⟩ := List.mem_filter.mp (mem_chainSet.mp hchain)
    exact ⟨⟨entry, hentry, rfl, hchain⟩, by simpa using hnot⟩
  · rintro ⟨⟨entry, hentry, rfl, hchain⟩, hnot⟩
    refine ⟨_, List.mem_filterMap.mpr ⟨entry, hentry,
      missingOf_eq_some_iff.mpr ⟨⟨chain, hchain, hnot⟩, rfl⟩⟩, rfl, ?_⟩
    exact mem_chainSet.mpr (List.mem_filter.mpr ⟨hchain, by simpa using hnot⟩)

/-- **What is added**: the chains of the device, with their addresses, that the last entry of the
wallet on the server lacks. -/
theorem mem_toAdd_iff {address : String} :
    Addressed (subscriptionChanges locals remote).toAdd id address chain ↔
      Addressed locals id address chain ∧ ∀ last, IsLast (·.walletId) remote last →
        last.walletId = id → chain ∉ last.chains := by
  have hknown : ∀ id' : WalletId,
      (AList.lookup id'.id (remoteChains remote)).any (·.contains chain) = false ↔
        ∀ last, IsLast (·.walletId) remote last → last.walletId = id' → chain ∉ last.chains := by
    intro id'
    rw [← Bool.not_eq_true, remoteChains, any_lookup_chainsById]
    push Not
    rfl
  constructor
  · rintro ⟨added, hmem, rfl, hentry⟩
    obtain ⟨wallet, hwallet, hadded⟩ := List.mem_filterMap.mp hmem
    obtain ⟨-, rfl⟩ := additionOf_eq_some_iff.mp hadded
    obtain ⟨hlocal, hnot⟩ := mem_filterMap_missingOf.mp hentry
    exact ⟨⟨wallet, hwallet, rfl, hlocal⟩, (hknown _).mp hnot⟩
  · rintro ⟨⟨wallet, hwallet, rfl, hlocal⟩, hnot⟩
    have hentry := mem_filterMap_missingOf.mpr ⟨hlocal, (hknown _).mpr hnot⟩
    have hleft := hentry
    obtain ⟨entry, hmem, -⟩ := hleft
    exact ⟨_, List.mem_filterMap.mpr ⟨wallet, hwallet,
      additionOf_eq_some_iff.mpr ⟨List.ne_nil_of_mem hmem, rfl⟩⟩, rfl, hentry⟩

lemma mem_localRelation_toAdd_iff :
    (id, chain) ∈ localRelation (subscriptionChanges locals remote).toAdd ↔
      (id, chain) ∈ localRelation locals ∧ ∀ last, IsLast (·.walletId) remote last →
        last.walletId = id → chain ∉ last.chains := by
  rw [mem_localRelation_iff, mem_localRelation_iff, ← exists_and_right]
  exact exists_congr fun address => mem_toAdd_iff

/-- What is deleted of a wallet, beside the case that the device does not have it. -/
theorem mem_deletionOf {wanted : Option (List Chain)} {wallet : WalletSubscriptionChains} :
    (∃ deleted, deletionOf wanted wallet = some deleted ∧ deleted.walletId = id ∧
        chain ∈ deleted.chains) ↔
      wallet.walletId = id ∧ chain ∈ wallet.chains ∧ wanted.any (·.contains chain) = false := by
  cases wanted with
  | none => simp [deletionOf]
  | some wanted =>
    rw [deletionOf]
    constructor
    · rintro ⟨deleted, hdeleted, rfl, hchain⟩
      split at hdeleted
      · cases hdeleted
      · obtain rfl := Option.some.inj hdeleted
        obtain ⟨hmem, hnot⟩ := List.mem_filter.mp (mem_chainSet.mp hchain)
        exact ⟨rfl, hmem, by simpa using hnot⟩
    · rintro ⟨rfl, hmem, hnot⟩
      have hchain : chain ∈ chainSet (wallet.chains.filter fun chain => !wanted.contains chain) :=
        mem_chainSet.mpr (List.mem_filter.mpr ⟨hmem, by simpa using hnot⟩)
      refine ⟨_, if_neg fun hempty => ?_, rfl, hchain⟩
      exact List.ne_nil_of_mem hchain (List.isEmpty_iff.mp hempty)

/-- **What is deleted**: the chains of the server that the last entry of the wallet on the device
lacks. -/
theorem mem_toDelete_iff :
    (id, chain) ∈ remoteRelation (subscriptionChanges locals remote).toDelete ↔
      (id, chain) ∈ remoteRelation remote ∧ ∀ last, IsLast (·.walletId) locals last →
        last.walletId = id → chain ∉ last.chains := by
  have hwanted : ∀ id' : WalletId,
      (AList.lookup id'.id (localChains locals)).any (·.contains chain) = false ↔
        ∀ last, IsLast (·.walletId) locals last → last.walletId = id' → chain ∉ last.chains := by
    intro id'
    rw [← Bool.not_eq_true, localChains, any_lookup_chainsById]
    push Not
    rfl
  constructor
  · rintro ⟨deleted, hmem, hid, hchain⟩
    obtain ⟨wallet, hwallet, hdeleted⟩ := List.mem_filterMap.mp hmem
    obtain ⟨rfl, hchain, hnot⟩ := mem_deletionOf.mp ⟨deleted, hdeleted, hid, hchain⟩
    exact ⟨⟨wallet, hwallet, rfl, hchain⟩, (hwanted _).mp hnot⟩
  · rintro ⟨⟨wallet, hwallet, rfl, hchain⟩, hnot⟩
    obtain ⟨deleted, hdeleted, hid, hchain⟩ :=
      mem_deletionOf.mpr ⟨rfl, hchain, (hwanted _).mpr hnot⟩
    exact ⟨deleted, List.mem_filterMap.mpr ⟨wallet, hwallet, hdeleted⟩, hid, hchain⟩

/-- There is something to add exactly if a chain is added. -/
lemma toAdd_eq_nil_iff :
    (subscriptionChanges locals remote).toAdd = [] ↔
      ∀ pair, pair ∉ localRelation (subscriptionChanges locals remote).toAdd := by
  constructor
  · rintro hnil pair ⟨wallet, hwallet, -⟩
    rw [hnil] at hwallet
    exact List.not_mem_nil hwallet
  · intro hnone
    refine List.eq_nil_iff_forall_not_mem.mpr fun added hadded => ?_
    obtain ⟨wallet, -, h⟩ := List.mem_filterMap.mp hadded
    obtain ⟨hne, rfl⟩ := additionOf_eq_some_iff.mp h
    obtain ⟨missing, hmissing⟩ := List.exists_mem_of_ne_nil _ hne
    obtain ⟨entry, -, h⟩ := List.mem_filterMap.mp hmissing
    obtain ⟨⟨chain, hchain, hnot⟩, rfl⟩ := missingOf_eq_some_iff.mp h
    refine hnone (wallet.walletId, chain) ⟨_, hadded, rfl, List.mem_flatMap.mpr ⟨_, hmissing, ?_⟩⟩
    exact mem_chainSet.mpr (List.mem_filter.mpr ⟨hchain, by simpa using hnot⟩)

/-- Where every wallet of the server has a chain, there is something to delete exactly if a chain is
deleted. -/
theorem toDelete_eq_nil_iff (h : ∀ wallet ∈ remote, wallet.chains ≠ []) :
    (subscriptionChanges locals remote).toDelete = [] ↔
      ∀ pair, pair ∉ remoteRelation (subscriptionChanges locals remote).toDelete := by
  constructor
  · rintro hnil pair ⟨wallet, hwallet, -⟩
    rw [hnil] at hwallet
    exact List.not_mem_nil hwallet
  · intro hnone
    refine List.eq_nil_iff_forall_not_mem.mpr fun deleted hdeleted => ?_
    obtain ⟨wallet, hwallet, heq⟩ := List.mem_filterMap.mp hdeleted
    have hchains : deleted.chains ≠ [] := by
      cases hlookup : AList.lookup wallet.walletId.id (localChains locals) with
      | none =>
        rw [hlookup, deletionOf] at heq
        exact Option.some.inj heq ▸ h wallet hwallet
      | some wanted =>
        rw [hlookup, deletionOf] at heq
        split at heq
        case isTrue => cases heq
        case isFalse hempty =>
          obtain rfl := Option.some.inj heq
          exact fun hnil => hempty (List.isEmpty_iff.mpr hnil)
    obtain ⟨chain, hchain⟩ := List.exists_mem_of_ne_nil _ hchains
    exact hnone (deleted.walletId, chain) ⟨deleted, hdeleted, rfl, hchain⟩

/-! ## Agreement -/

/-- The wallets and chains after a round can be listed. -/
lemma exists_lists (locals : List WalletSubscription) (remote : List WalletSubscriptionChains)
    {relation : Set (WalletId × Chain)}
    (h : ∀ pair ∈ relation, pair ∈ localRelation locals ∨ pair ∈ remoteRelation remote) :
    ∃ result, Lists result relation := by
  classical
  let ids := (locals.map (·.walletId) ++ remote.map (·.walletId)).dedup
  let entry (id : WalletId) : WalletSubscriptionChains :=
    ⟨id, Chain.all.filter fun chain => (id, chain) ∈ relation⟩
  have hentry : ∀ id chain, chain ∈ (entry id).chains ↔ (id, chain) ∈ relation := by
    simp [entry, mem_all]
  refine ⟨(ids.map entry).filter fun wallet => !wallet.chains.isEmpty, ?_, ?_, ?_⟩
  · have hids : ((ids.map entry).map (·.walletId)).Nodup := by
      rw [List.map_map]
      exact (List.map_id ids).symm ▸ List.nodup_dedup _
    exact hids.sublist (List.filter_sublist.map _)
  · intro wallet hwallet hnil
    have hfilter := (List.mem_filter.mp hwallet).2
    rw [hnil] at hfilter
    cases hfilter
  · ext ⟨id, chain⟩
    constructor
    · rintro ⟨wallet, hwallet, rfl, hchain⟩
      obtain ⟨id, -, rfl⟩ := List.mem_map.mp (List.mem_filter.mp hwallet).1
      exact (hentry _ _).mp hchain
    · intro hmem
      have hchain := (hentry id chain).mpr hmem
      refine ⟨entry id, List.mem_filter.mpr ⟨List.mem_map_of_mem ?_, ?_⟩, rfl, hchain⟩
      · rw [List.mem_dedup, List.mem_append]
        rcases h _ hmem with ⟨wallet, hwallet, hid, -⟩ | ⟨wallet, hwallet, hid, -⟩
        · exact .inl (List.mem_map.mpr ⟨wallet, hwallet, hid⟩)
        · exact .inr (List.mem_map.mpr ⟨wallet, hwallet, hid⟩)
      · cases hchains : (entry id).chains with
        | nil =>
          rw [hchains] at hchain
          exact absurd hchain List.not_mem_nil
        | cons head tail => rfl

/-- What is applied stays among what the two sides have. -/
lemma mem_applied {pair : WalletId × Chain}
    (h : pair ∈ applied remote (subscriptionChanges locals remote)) :
    pair ∈ localRelation locals ∨ pair ∈ remoteRelation remote := by
  rcases h with ⟨hremote, -⟩ | hadded
  · exact .inr hremote
  · exact .inl (mem_localRelation_toAdd_iff.mp hadded).1

namespace LastEntriesSpeak

variable (h : LastEntriesSpeak locals remote)

include h

/-- Of the chains that the device has, none is deleted. -/
lemma not_mem_toDelete (hlocal : (id, chain) ∈ localRelation locals) :
    (id, chain) ∉ remoteRelation (subscriptionChanges locals remote).toDelete := by
  intro hdeleted
  have hlisted := hlocal
  obtain ⟨wallet, hwallet, rfl, -⟩ := hlisted
  obtain ⟨last, -, hlast, hid⟩ := exists_isLast (·.walletId) hwallet
  exact (mem_toDelete_iff.mp hdeleted).2 last hlast hid (h.ofLocals last hlast chain (hid ▸ hlocal))

/-- Of the chains that both sides have, none is added. -/
lemma not_mem_toAdd (hlocal : (id, chain) ∈ localRelation locals)
    (hremote : (id, chain) ∈ remoteRelation remote) :
    (id, chain) ∉ localRelation (subscriptionChanges locals remote).toAdd := by
  intro hadded
  have hlisted := hremote
  obtain ⟨wallet, hwallet, rfl, -⟩ := hlisted
  obtain ⟨last, -, hlast, hid⟩ := exists_isLast (·.walletId) hwallet
  exact (mem_localRelation_toAdd_iff.mp hadded).2 last hlast hid
    (h.ofRemote last hlast chain (hid ▸ hlocal) (hid ▸ hremote))

/-- One round makes the two sides agree. -/
lemma applied_eq :
    applied remote (subscriptionChanges locals remote) = localRelation locals := by
  ext ⟨id, chain⟩
  constructor
  · rintro (⟨hremote, hkept⟩ | hadded)
    · by_contra hlocal
      refine hkept (mem_toDelete_iff.mpr ⟨hremote, fun last hlast hid hchain => hlocal ?_⟩)
      obtain ⟨before, after, rfl, -⟩ := hlast
      exact ⟨last, by simp, hid, hchain⟩
    · exact (mem_localRelation_toAdd_iff.mp hadded).1
  · intro hlocal
    by_cases hremote : (id, chain) ∈ remoteRelation remote
    · exact .inl ⟨hremote, h.not_mem_toDelete hlocal⟩
    · refine .inr (mem_localRelation_toAdd_iff.mpr ⟨hlocal, fun last hlast hid hchain => ?_⟩)
      obtain ⟨before, after, rfl, -⟩ := hlast
      exact hremote ⟨last, by simp, hid, hchain⟩

end LastEntriesSpeak

/-- Where the server lists what the device has, each wallet once, there is nothing to do, if the
last entry of each wallet of the device speaks for the others. -/
theorem isEmpty_of_lists
    (hlocals : ∀ wallet, IsLast (·.walletId) locals wallet → ∀ chain,
      (wallet.walletId, chain) ∈ localRelation locals → chain ∈ wallet.chains)
    {result : List WalletSubscriptionChains} (h : Lists result (localRelation locals)) :
    (subscriptionChanges locals result).isEmpty = true := by
  have hspeak : LastEntriesSpeak locals result := by
    refine ⟨hlocals, fun wallet hlast chain _ hremote => ?_⟩
    obtain ⟨other, hother, hid, hchain⟩ := hremote
    exact hlast.eq_of_nodup h.nodup hother hid ▸ hchain
  rw [SubscriptionChanges.isEmpty, Bool.and_eq_true, List.isEmpty_iff, List.isEmpty_iff,
    toAdd_eq_nil_iff, toDelete_eq_nil_iff h.nonempty]
  constructor
  · rintro ⟨id, chain⟩ hadded
    have hlocal := (mem_localRelation_toAdd_iff.mp hadded).1
    exact hspeak.not_mem_toAdd hlocal (h.relation ▸ hlocal) hadded
  · rintro ⟨id, chain⟩ hdeleted
    have hremote := (mem_toDelete_iff.mp hdeleted).1
    exact hspeak.not_mem_toDelete (h.relation ▸ hremote) hdeleted

/-- **When a round of the synchronization makes both sides agree**: exactly if the last entry of
each wallet speaks for its other entries.

**Proof sketch.** What is added and deleted of a wallet depends on the last entry of the wallet on
the other side. If that one lists what the others list, the additions and deletions are the two
differences of the relations. If the last entry of the device lacks a chain, the round that follows
deletes it again; if the last one of the server does, the chain is added although it is there. -/
theorem converges_iff (locals : List WalletSubscription)
    (remote : List WalletSubscriptionChains) :
    Converges locals remote ↔ LastEntriesSpeak locals remote := by
  constructor
  · intro h
    refine ⟨fun wallet hlast chain hlocal => ?_, fun wallet hlast chain hlocal hremote => ?_⟩
    · by_contra hchain
      obtain ⟨result, hresult⟩ := exists_lists locals remote fun pair => mem_applied
      have hempty := h.stable result hresult
      rw [SubscriptionChanges.isEmpty, Bool.and_eq_true, List.isEmpty_iff, List.isEmpty_iff,
        toDelete_eq_nil_iff hresult.nonempty] at hempty
      refine hempty.2 (wallet.walletId, chain) (mem_toDelete_iff.mpr ⟨?_, ?_⟩)
      · rw [hresult.relation, h.applied_eq]
        exact hlocal
      · intro last hlast' hid hmem
        exact hchain ((hlast'.chains_eq hlast hid).mp hmem)
    · by_contra hchain
      refine (h.untouched _ hlocal hremote).1 (mem_localRelation_toAdd_iff.mpr ⟨hlocal, ?_⟩)
      intro last hlast' hid hmem
      exact hchain ((hlast'.chains_eq hlast hid).mp hmem)
  · intro h
    refine ⟨h.applied_eq, ?_, ?_, ?_, ?_⟩
    · intro id chain hadded address
      rw [mem_toAdd_iff]
      exact and_iff_left (mem_localRelation_toAdd_iff.mp hadded).2
    · rintro ⟨id, chain⟩ hadded
      exact h.not_mem_toDelete (mem_localRelation_toAdd_iff.mp hadded).1
    · rintro ⟨id, chain⟩ hlocal hremote
      exact ⟨h.not_mem_toAdd hlocal hremote, h.not_mem_toDelete hlocal⟩
    · intro result hresult
      rw [h.applied_eq] at hresult
      exact isEmpty_of_lists h.ofLocals hresult

/-- A server that lists one wallet twice is told again about the chain of the first entry. -/
theorem not_converges_repeated :
    ¬ Converges [⟨.multicoin "wallet1", some .import, [.new "btc1" [.bitcoin, .ethereum]]⟩]
      [⟨.multicoin "wallet1", [.bitcoin]⟩, ⟨.multicoin "wallet1", [.ethereum]⟩] := by
  intro h
  have hadded : (subscriptionChanges
      [⟨.multicoin "wallet1", some .import, [.new "btc1" [.bitcoin, .ethereum]]⟩]
      [⟨.multicoin "wallet1", [.bitcoin]⟩, ⟨.multicoin "wallet1", [.ethereum]⟩]).toAdd =
        [⟨.multicoin "wallet1", some .import, [.new "btc1" [.bitcoin]]⟩] := by decide +kernel
  refine (h.untouched (.multicoin "wallet1", .bitcoin) ?_ ?_).1 ?_
  · exact ⟨_, List.mem_cons_self, rfl, by decide +kernel⟩
  · exact ⟨_, List.mem_cons_self, rfl, by decide +kernel⟩
  · rw [hadded]
    exact ⟨_, List.mem_cons_self, rfl, by decide +kernel⟩

/-! ## The wallets of a device -/

/-- A map from addresses to chains, in the order of the addresses, that lists the given accounts. -/
structure Files (entries : List (String × List Chain)) (accounts : List (String × Chain)) : Prop where
  ascending : (entries.map Prod.fst).Pairwise (· < ·)
  nonempty : ∀ entry ∈ entries, entry.2 ≠ []
  mem : ∀ address chain, (∃ entry ∈ entries, entry.1 = address ∧ chain ∈ entry.2) ↔
    (address, chain) ∈ accounts

section Files

variable {entries : List (String × List Chain)} {address : String} {chain : Chain}

/-- The keys after an insertion are those before, and the new one. -/
lemma mem_keys_insertChain {key : String} :
    key ∈ (insertChain address chain entries).map Prod.fst ↔
      key = address ∨ key ∈ entries.map Prod.fst := by
  fun_induction insertChain address chain entries with
  | case1 => simp
  | case2 => simp
  | case3 chains rest hlt => simp
  | case4 other chains rest hlt hne ih =>
    rw [List.map_cons, List.mem_cons, ih, List.map_cons, List.mem_cons, or_left_comm]

lemma pairwise_insertChain (h : (entries.map Prod.fst).Pairwise (· < ·)) :
    ((insertChain address chain entries).map Prod.fst).Pairwise (· < ·) := by
  fun_induction insertChain address chain entries with
  | case1 => exact List.pairwise_singleton _ _
  | case2 other chains rest hlt =>
    refine List.pairwise_cons.mpr ⟨fun key hkey => ?_, h⟩
    rcases List.mem_cons.mp hkey with rfl | hkey
    · exact hlt
    · exact hlt.trans (List.rel_of_pairwise_cons h hkey)
  | case3 chains rest hlt => exact h
  | case4 other chains rest hlt hne ih =>
    refine List.pairwise_cons.mpr ⟨fun key hkey => ?_, ih h.of_cons⟩
    rcases mem_keys_insertChain.mp hkey with rfl | hkey
    · exact lt_of_le_of_ne (le_of_not_gt hlt) (Ne.symm hne)
    · exact List.rel_of_pairwise_cons h hkey

/-- What is listed after an insertion. -/
lemma exists_mem_insertChain {address' : String} {chain' : Chain} :
    (∃ entry ∈ insertChain address chain entries, entry.1 = address' ∧ chain' ∈ entry.2) ↔
      (∃ entry ∈ entries, entry.1 = address' ∧ chain' ∈ entry.2) ∨
        (address' = address ∧ chain' = chain) := by
  fun_induction insertChain address chain entries with
  | case1 => simp [eq_comm]
  | case2 other chains rest hlt => simp [eq_comm, or_comm]
  | case3 chains rest hlt =>
    simp only [List.mem_cons, exists_eq_or_imp, mem_chainSet]
    grind
  | case4 other chains rest hlt hne ih =>
    simp only [List.mem_cons, exists_eq_or_imp, ih, or_assoc]

lemma nonempty_insertChain (h : ∀ entry ∈ entries, entry.2 ≠ []) :
    ∀ entry ∈ insertChain address chain entries, entry.2 ≠ [] := by
  have hcons : ∀ chains, chainSet (chain :: chains) ≠ [] := fun chains =>
    List.ne_nil_of_mem (mem_chainSet.mpr (List.mem_cons_self (a := chain)))
  fun_induction insertChain address chain entries with
  | case1 => simpa using hcons []
  | case2 other chains rest hlt => exact List.forall_mem_cons.mpr ⟨hcons _, h⟩
  | case3 chains rest hlt =>
    exact List.forall_mem_cons.mpr ⟨hcons _, (List.forall_mem_cons.mp h).2⟩
  | case4 other chains rest hlt hne ih =>
    obtain ⟨hfirst, hrest⟩ := List.forall_mem_cons.mp h
    exact List.forall_mem_cons.mpr ⟨hfirst, ih hrest⟩

/-- An account is put to those that are listed. -/
lemma Files.insertChain {accounts : List (String × Chain)} (h : Files entries accounts) :
    Files (insertChain address chain entries) (accounts ++ [(address, chain)]) where
  ascending := pairwise_insertChain h.ascending
  nonempty := nonempty_insertChain h.nonempty
  mem address' chain' := by
    rw [exists_mem_insertChain, h.mem, List.mem_append, List.mem_singleton, Prod.mk.injEq]

/-- The loop over the accounts lists them all. -/
lemma files_chainsByAddress (wallet : Wallet) :
    Files (chainsByAddress wallet)
      (wallet.accounts.map fun account => (account.address, account.chain)) := by
  unfold chainsByAddress
  induction wallet.accounts using List.reverseRecOn with
  | nil => exact ⟨.nil, by simp, by simp⟩
  | append_singleton accounts account ih =>
    rw [List.foldl_append, List.map_append]
    exact ih.insertChain

end Files

/-- **The subscriptions of wallets are their accounts**: a chain is listed under an address for a
wallet exactly if a wallet with that id has such an account. Each wallet lists an address once, in
the order of the addresses, and its chains in the order of their declaration, each once.

**Proof sketch.** The map that the loop fills lists, after each account, the accounts so far. -/
theorem addressed_walletSubscriptions (wallets : List Wallet) :
    (∀ subscription ∈ walletSubscriptions wallets,
      (subscription.subscriptions.map (·.address)).Pairwise (· < ·) ∧
      ∀ entry ∈ subscription.subscriptions,
        entry.chains ≠ [] ∧ entry.chains.Sublist Chain.all) ∧
    ∀ id address chain, Addressed (walletSubscriptions wallets) id address chain ↔
      ∃ wallet ∈ wallets, wallet.id = id ∧
        ∃ account ∈ wallet.accounts, account.address = address ∧ account.chain = chain := by
  refine ⟨fun subscription hmem => ?_, fun id address chain => ?_⟩
  · obtain ⟨wallet, -, rfl⟩ := List.mem_map.mp hmem
    have hfiles := files_chainsByAddress wallet
    refine ⟨?_, fun entry hentry => ?_⟩
    · show ((addressChains wallet).map (·.address)).Pairwise (· < ·)
      rw [addressChains, List.map_map]
      exact hfiles.ascending
    · obtain ⟨⟨address, chains⟩, hin, rfl⟩ := List.mem_map.mp hentry
      refine ⟨?_, List.filter_sublist⟩
      obtain ⟨chain, hchain⟩ := List.exists_mem_of_ne_nil _ (hfiles.nonempty _ hin)
      exact List.ne_nil_of_mem (mem_chainSet.mpr hchain)
  · have hentries : ∀ wallet : Wallet,
        (∃ entry ∈ addressChains wallet, entry.address = address ∧ chain ∈ entry.chains) ↔
          ∃ account ∈ wallet.accounts, account.address = address ∧ account.chain = chain := by
      intro wallet
      have hlisted := (files_chainsByAddress wallet).mem address chain
      simp only [List.mem_map, Prod.mk.injEq] at hlisted
      rw [← hlisted]
      simp only [addressChains, List.mem_map, exists_exists_and_eq_and, AddressChains.new,
        mem_chainSet]
    simp only [Addressed, walletSubscriptions, List.mem_map, exists_exists_and_eq_and, hentries]

end GemCore.Subscription
