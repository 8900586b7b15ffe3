import GemCore.Keystore.SharedPassword
import GemCore.TransactionState.Rules

/-!
# The wallets of a device

`import_wallet`, `delete_wallet` and `set_current_wallet_id` of
`gemstone/src/services/wallet/mod.rs`. The wallets stand in a table, their secrets in the files
of the keystore, the current one in the session, and more about them in the address book, among
the images and in the preferences. Every call to one of these may fail, and a failed call ends
the operation where it is.

Deriving accounts from a phrase or a key, and what counts as a valid one, is left to the
libraries in `WalletLib`.

## Main definitions

* `Registry` — all of it as one state.
* `importWallet`, `deleteWallet`, `setCurrentWalletId` — the operations.
* `RegistryOp` — an operation with what the outside gives it.
-/

namespace GemCore.WalletService

open Lib (Proc)
open Keystore (Disk Io Draws Externals FileKeystore KeystoreError keystoreIdForWallet)

/-- `Account`. -/
structure Account where
  chain : Chain
  address : String
  derivationPath : String
  extendedPublicKey : Option String

/-- `WalletSource`. -/
inductive WalletSource where
  | create
  | import
  deriving DecidableEq

/-- `Wallet`. -/
structure Wallet where
  id : WalletId
  externalId : Option String
  name : String
  index : ℤ
  walletType : WalletType
  accounts : List Account
  isPinned : Bool
  imageUrl : Option String
  source : WalletSource

/-- `GemWalletImportType`. -/
inductive GemWalletImportType where
  | multicoinPhrase (words : List String) (chains : List Chain)
  | singlePhrase (words : List String) (chain : Chain)
  | privateKey (value : String) (chain : Chain)
  | address (address : String) (chain : Chain)

/-- `GemWalletImportResult`. -/
inductive GemWalletImportResult where
  | new (wallet : Wallet)
  | existing (wallet : Wallet)

/-- `GemWalletDeletion`. -/
inductive GemWalletDeletion where
  | walletsRemaining
  | lastWalletDeleted

/-- The flags that `complete_initial_synchronization` sets, of `WalletPreferenceKey`. -/
inductive WalletPreferenceKey where
  | completeInitialWalletConfiguration
  | completeInitialLoadAssets
  | completeInitialLoadTransactions
  | completeInitialLoadNfts
  deriving DecidableEq

/-- What the service calls outside itself to read and derive secrets. A text in an error is the
message. -/
structure WalletLib where
  /-- `str::to_lowercase`, by the tables of Unicode. -/
  toLowercase : String → String
  /-- `Mnemonic::invalid_words`. -/
  invalidWords : String → List String
  /-- `Mnemonic::is_valid`. -/
  isValidPhrase : String → Bool
  /-- Whether `decode_private_key` accepts a key of a chain. -/
  decodesPrivateKey : Chain → String → Bool
  /-- `checksum_address`. -/
  checksumAddress : String → Chain → String
  /-- `validate_address`. -/
  validateAddress : String → Chain → Bool
  /-- `derive_accounts_from_mnemonic`. -/
  deriveAccounts : String → List Chain → Except String (List Account)
  /-- `import_account_from_private_key`: the account and the key itself. -/
  importAccount : String → Chain → Except String (Account × List UInt8)

/-- The state of the device: the keystore directory, the table of wallets, the current wallet of
the session, the address book, the images, the preferences of the wallets, the version of the
subscriptions, and the password store with the shared password and the one it would create. -/
structure Registry where
  disk : Disk
  wallets : List Wallet
  current : Option WalletId
  names : Chain × String → Option String
  files : String → Bool
  preferences : WalletId → List WalletPreferenceKey
  subscriptionsVersion : ℤ
  shared : Option String
  created : String

/-- Programs of the service. -/
abbrev ServiceIo (α : Type) : Type := Proc Registry GemServiceError α

/-- A call of a store; failures are reported with their message. -/
def storeCall {α : Type} (f : Registry → α × Registry) : ServiceIo α :=
  Proc.call .store fun r => .ok (f r)

/-- Put a disk into a registry. -/
def Registry.setDisk (disk : Disk) (r : Registry) : Registry := { r with disk := disk }

/-- An operation of the keystore. -/
def onKeystore {α : Type} (x : Io α) : ServiceIo α :=
  Proc.mapError (fun e => .core e.text) (Proc.zoom Registry.disk Registry.setDisk x)

/-! ## The stores -/

/-- `GemWalletStore::get_wallets`. -/
def getWallets : ServiceIo (List Wallet) := storeCall fun r => (r.wallets, r)

/-- `GemWalletStore::get_wallet`. -/
def getWallet (id : WalletId) : ServiceIo (Option Wallet) :=
  storeCall fun r => (r.wallets.find? (·.id = id), r)

/-- `GemWalletStore::add_wallet`: a wallet with the same id is replaced. -/
def addWallet (wallet : Wallet) : ServiceIo Unit := storeCall fun r =>
  ((), { r with wallets := r.wallets.filter (·.id ≠ wallet.id) ++ [wallet] })

/-- `GemWalletStore::delete_wallet`. -/
def deleteWalletRow (id : WalletId) : ServiceIo Bool := storeCall fun r =>
  (r.wallets.any (·.id = id), { r with wallets := r.wallets.filter (·.id ≠ id) })

/-- The address book with one entry set for each account of a wallet (`wallet_address_names`). -/
def setNames (names : Chain × String → Option String) (wallet : Wallet) (name : Option String) :
    Chain × String → Option String := fun key =>
  if wallet.accounts.any (fun account => (account.chain, account.address) = key) then
    name
  else
    names key

/-- `GemAddressStore::save_address_names`. -/
def saveAddressNames (wallet : Wallet) : ServiceIo Unit := storeCall fun r =>
  ((), { r with names := setNames r.names wallet (some wallet.name) })

/-- `GemAddressStore::delete_address_names`. -/
def deleteAddressNames (wallet : Wallet) : ServiceIo Unit := storeCall fun r =>
  ((), { r with names := setNames r.names wallet none })

/-- `GemFileStore::remove`. -/
def removeImage (url : String) : ServiceIo Unit := storeCall fun r =>
  ((), { r with files := Function.update r.files url false })

/-- `GemWalletPreferencesStore::delete_preferences`. -/
def deletePreferences (id : WalletId) : ServiceIo Unit := storeCall fun r =>
  ((), { r with preferences := Function.update r.preferences id [] })

/-- `GemWalletPreferencesService::set_flag`: a flag that is set is left alone. -/
def setFlag (id : WalletId) (key : WalletPreferenceKey) : ServiceIo Unit := do
  let flags ← Proc.read fun r => r.preferences id
  if key ∈ flags then
    pure ()
  else
    storeCall fun r =>
      ((), { r with preferences := Function.update r.preferences id (key :: r.preferences id) })

/-- `GemWalletPreferencesService::complete_initial_synchronization`. -/
def completeInitialSynchronization (id : WalletId) : ServiceIo Unit := do
  setFlag id .completeInitialWalletConfiguration
  setFlag id .completeInitialLoadAssets
  setFlag id .completeInitialLoadTransactions
  setFlag id .completeInitialLoadNfts

/-- `invalidate_subscriptions`. -/
def invalidateSubscriptions : ServiceIo Unit := storeCall fun r =>
  ((), { r with subscriptionsVersion := r.subscriptionsVersion + 1 })

/-- `GemKeystorePassword::get_password`. -/
def getPassword (createIfMissing : Bool) : ServiceIo String := Proc.call .store fun r =>
  match r.shared with
  | some password => .ok (password, r)
  | none =>
    if createIfMissing then
      .ok (r.created, { r with shared := some r.created })
    else
      .error (.notFound "no keystore password")

/-- `GemWalletSessionStore::get_current_wallet_id`. -/
def getCurrentWalletId : ServiceIo (Option WalletId) := storeCall fun r => (r.current, r)

/-- `GemWalletSessionStore::set_current_wallet_id`. -/
def storeCurrentWalletId (id : Option WalletId) : ServiceIo Unit := storeCall fun r =>
  ((), { r with current := id })

/-- `GemWalletSessionService::set_current_wallet_id`: the session is written where it changes. -/
def setSessionWalletId (id : Option WalletId) : ServiceIo Unit := do
  let current ← getCurrentWalletId
  if current = id then pure () else storeCurrentWalletId id

/-! ## Rules -/

/-- `WalletType::rank`. -/
def rank : WalletType → ℕ
  | .multicoin => 0
  | .single => 1
  | .privateKey => 2
  | .view => 3

/-- `existing_wallet`. -/
def existingWallet (wallets : List Wallet) (id : WalletId) (walletType : WalletType) :
    Option Wallet :=
  wallets.find? fun wallet => wallet.id = id ∧ wallet.walletType = walletType

/-- `next_wallet_index`. -/
def nextWalletIndex (wallets : List Wallet) : ℤ :=
  match (wallets.map (·.index)).max? with
  | some index => index + 1
  | none => 1

/-- Whether a wallet's rank and index are below another's. -/
def Wallet.before (a b : Wallet) : Bool :=
  rank a.walletType < rank b.walletType ||
    (rank a.walletType == rank b.walletType && a.index < b.index)

/-- `Iterator::min_by_key` by rank and index: the first of the smallest. -/
def minWallet : List Wallet → Option Wallet
  | [] => none
  | wallet :: wallets =>
    match minWallet wallets with
    | none => some wallet
    | some other => if other.before wallet then some other else some wallet

/-- `next_current_wallet`. -/
def nextCurrentWallet (wallets : List Wallet) : Option WalletId :=
  (minWallet wallets).map (·.id)

/-- `legacy_keystore_id`. -/
def legacyKeystoreId (wallet : Wallet) : String := wallet.externalId.getD wallet.id.id

/-- `view_wallet`. -/
def viewWallet (name : String) (chain : Chain) (address : String) : Wallet where
  id := .view chain address
  externalId := none
  name := name
  index := 0
  walletType := .view
  accounts := [⟨chain, address, "", some ""⟩]
  isPinned := false
  imageUrl := none
  source := .import

/-- `str::trim`. -/
def trim (text : String) : String := .ofList (GemCore.trim text.toList)

@[simp] lemma trim_trim (text : String) : trim (trim text) = trim text := by
  simp [trim]

/-- `str::split_whitespace`. -/
def splitWhitespace (text : String) : List String :=
  (GemCore.splitWhitespace text.toList).map .ofList

/-- `validated_words`. -/
def validatedWords (W : WalletLib) (words : List String) :
    Except GemServiceError (List String) :=
  let words := (words.flatMap splitWhitespace).map W.toLowercase
  let phrase := " ".intercalate words
  let invalid := W.invalidWords phrase
  if invalid ≠ [] then
    .error (.invalidInput ("invalid secret phrase words: " ++ ", ".intercalate invalid))
  else if !W.isValidPhrase phrase then
    .error (.invalidInput "invalid secret phrase")
  else
    .ok words

/-- `GemWalletImportType::validated`. -/
def validated (W : WalletLib) : GemWalletImportType → Except GemServiceError GemWalletImportType
  | .multicoinPhrase words chains => do
    let words ← validatedWords W words
    .ok (.multicoinPhrase words chains)
  | .singlePhrase words chain => do
    let words ← validatedWords W words
    .ok (.singlePhrase words chain)
  | .privateKey value chain =>
    if W.decodesPrivateKey chain (trim value) then
      .ok (.privateKey (trim value) chain)
    else
      .error (.invalidInput "invalid private key")
  | .address address chain =>
    let address := W.checksumAddress (trim address) chain
    if W.validateAddress address chain then
      .ok (.address address chain)
    else
      .error (.invalidInput "invalid address")

/-! ## Importing -/

/-- What the keystore knows of an import: the wallet it is for, its type, its accounts and the
secret to store. -/
structure StoredWallet where
  walletId : WalletId
  walletType : WalletType
  accounts : List Account
  secret : String ⊕ List UInt8

/-- `derive_wallet_id_from_account`, for the types the keystore derives. -/
def deriveWalletId (account : Account) : WalletType → Except String WalletId
  | .multicoin => .ok (.multicoin account.address)
  | .single => .ok (.single account.chain account.address)
  | .privateKey => .ok (.privateKey account.chain account.address)
  | .view => .error "view wallet id is app-only"

/-- `derive_mnemonic_wallet`. -/
def deriveMnemonicWallet (W : WalletLib) (words : List String) (requested : List Chain)
    (walletType : WalletType) (idChain : Chain) : Except String StoredWallet := do
  if requested = [] then .error "mnemonic derivation requires at least one chain"
  else do
    let phrase := " ".intercalate words
    let chains := if idChain ∈ requested then requested else requested ++ [idChain]
    let derived ← W.deriveAccounts phrase chains
    let account ← Lib.okOr (derived.find? (·.chain = idChain))
      "wallet id account derivation returned no account"
    let walletId ← deriveWalletId account walletType
    .ok ⟨walletId, walletType, derived.filter (·.chain ∈ requested), .inl phrase⟩

/-- What `preview_import` and `create_store` of `GemKeystore` derive of an import, which for both
is one computation; an address is taken as a key, and a view wallet does not come here. -/
def keystoreDerive (W : WalletLib) : GemWalletImportType → Except String StoredWallet
  | .privateKey value chain | .address value chain => do
    let (account, key) ← W.importAccount value chain
    let walletId ← deriveWalletId account .privateKey
    .ok ⟨walletId, .privateKey, [account], .inr key⟩
  | .multicoinPhrase words chains => deriveMnemonicWallet W words chains .multicoin .ethereum
  | .singlePhrase words chain => deriveMnemonicWallet W words [chain] .single chain

/-- `preview_import`: the text of the wallet's id, and its type. -/
def previewImport (W : WalletLib) (import_ : GemWalletImportType) :
    Except GemServiceError (String × WalletType) := do
  match ← validated W import_ with
  | .address address chain => .ok ((viewWallet "" chain address).id.id, .view)
  | import_ => do
    let derived ← (keystoreDerive W import_).mapError .core
    .ok (derived.walletId.id, derived.walletType)

section Operations

variable (X : Externals) (ks : FileKeystore)

/-- The loop of `list`, which counts the entries that are named like a keystore file; what is
wrong with one of them is only noted. -/
def listLoop : List String → ℕ → Io ℕ
  | [], count => pure count
  | name :: names, count => do
    Keystore.readDir
    if ".json".toList <:+ name.toList ∧ name ≠ ".json" then do
      let _ ← ((Keystore.readCapped (ks.join name) Keystore.wholeFileCap).attempt :
        Io (Except KeystoreError (List UInt8)))
      listLoop names (count + 1)
    else listLoop names count

/-- `GemKeystore::has_stored_wallets`, with the names `read_dir` yields. -/
def hasStoredWallets (entries : List String) : Io Bool := do
  Keystore.readDir
  let count ← listLoop ks entries 0
  pure (count ≠ 0)

/-- `GemKeystore::create_store`, once the wallet is derived. -/
def createStore (draws : Draws) (stored : StoredWallet) (password : List UInt8) : Io Unit := do
  let id := (keystoreIdForWallet X stored.walletId).value
  match stored.secret with
  | .inl phrase => do
    let _ ← Keystore.importMnemonic X ks draws phrase password (some id)
    pure ()
  | .inr key => do
    let _ ← Keystore.importPrivateKey X ks draws key password (some id)
    pure ()

/-- The arm of `import_wallet` that stores a secret: the wallet it makes. -/
def createWallet (W : WalletLib) (draws : Draws) (entries : List String)
    (import_ : GemWalletImportType) (id : WalletId) (name : String) (index : ℤ)
    (source : WalletSource) : ServiceIo Wallet := do
  let hasStored ← onKeystore (hasStoredWallets ks entries)
  let password ← getPassword !hasStored
  let stored ← Proc.ofExcept ((keystoreDerive W import_).mapError .core)
  onKeystore (createStore X ks draws stored (Keystore.decodePassword password))
  pure
    { id, externalId := none, name, index, walletType := stored.walletType,
      accounts := stored.accounts.map fun account =>
        { account with extendedPublicKey := some (account.extendedPublicKey.getD "") },
      isPinned := false, imageUrl := none, source }

/-- The wallet that an import makes. -/
def makeWallet (W : WalletLib) (draws : Draws) (entries : List String)
    (import_ : GemWalletImportType) (id : WalletId) (name : String) (index : ℤ)
    (source : WalletSource) : ServiceIo Wallet :=
  match import_ with
  | .address address chain => pure { viewWallet name chain address with index }
  | import_ => createWallet X ks W draws entries import_ id name index source

/-- `store_wallet`. -/
def storeWallet (wallet : Wallet) : ServiceIo Unit := do
  addWallet wallet
  saveAddressNames wallet

/-- A wallet that was created, not imported, has nothing to synchronise. -/
def completeCreated (wallet : Wallet) : ServiceIo Unit :=
  if wallet.source = .create then completeInitialSynchronization wallet.id else pure ()

/-- `import_wallet`. -/
def importWallet (W : WalletLib) (draws : Draws) (entries : List String) (name : String)
    (import_ : GemWalletImportType) (source : WalletSource) :
    ServiceIo GemWalletImportResult := do
  let import_ ← Proc.ofExcept (validated W import_)
  let preview ← Proc.ofExcept (previewImport W import_)
  let id ← Proc.ofExcept (Lib.okOr (WalletId.fromId preview.1)
    (.core ("invalid wallet id " ++ preview.1)))
  let wallets ← getWallets
  match existingWallet wallets id preview.2 with
  | some wallet => pure (.existing wallet)
  | none => do
    let wallet ← makeWallet X ks W draws entries import_ id name (nextWalletIndex wallets) source
    storeWallet wallet
    completeCreated wallet
    invalidateSubscriptions
    pure (.new wallet)

/-! ## Deleting -/

/-- `GemKeystore::delete_wallet_secrets`, with the names `read_dir` yields. -/
def deleteWalletSecrets (entries : List String) (id : WalletId) (legacyId : String) :
    ServiceIo Unit := do
  let _ ← onKeystore (Keystore.delete ks (keystoreIdForWallet X id).value)
  let _ ← onKeystore (Keystore.deleteV3 X ks legacyId entries)
  pure ()

/-- The wallet that is to be deleted. -/
def findWallet (id : WalletId) : ServiceIo Wallet := do
  let found ← getWallet id
  Proc.ofExcept (Lib.okOr found (.notFound ("wallet " ++ id.id ++ " not found")))

/-- The secrets of a wallet, which a view wallet does not have, and then its row. -/
def deleteSecretsAndRow (entries : List String) (wallet : Wallet) : ServiceIo Unit := do
  (if wallet.walletType = .view then
    pure ()
  else
    deleteWalletSecrets X ks entries wallet.id (legacyKeystoreId wallet))
  let _ ← deleteWalletRow wallet.id
  pure ()

/-- The image of a wallet. -/
def deleteImage (wallet : Wallet) : ServiceIo Unit :=
  match wallet.imageUrl with
  | some url => removeImage url
  | none => pure ()

/-- The session after a deletion: where no wallet remains, or the deleted one was the current
one, the next one becomes the current one. -/
def settleSession (wallet : Wallet) (remaining : List Wallet) : ServiceIo Unit :=
  if remaining = [] then setSessionWalletId (nextCurrentWallet remaining)
  else do
    let current ← getCurrentWalletId
    if current = some wallet.id then setSessionWalletId (nextCurrentWallet remaining)
    else pure ()

/-- What else is kept of a wallet, and then the session; the wallets that remain. -/
def forgetWallet (wallet : Wallet) : ServiceIo (List Wallet) := do
  deleteAddressNames wallet
  deleteImage wallet
  deletePreferences wallet.id
  let remaining ← getWallets
  settleSession wallet remaining
  pure remaining

/-- `delete_wallet`. -/
def deleteWallet (entries : List String) (id : WalletId) : ServiceIo GemWalletDeletion := do
  let wallet ← findWallet id
  deleteSecretsAndRow X ks entries wallet
  let remaining ← forgetWallet wallet
  invalidateSubscriptions
  pure (if remaining = [] then .lastWalletDeleted else .walletsRemaining)

/-- `set_current_wallet_id`. -/
def setCurrentWalletId (id : WalletId) : ServiceIo Unit := setSessionWalletId (some id)

end Operations

/-- An operation, with the random numbers it draws and the directory listing it gets. -/
inductive RegistryOp where
  | importWallet (draws : Draws) (entries : List String) (name : String)
      (import_ : GemWalletImportType) (source : WalletSource)
  | deleteWallet (entries : List String) (id : WalletId)
  | setCurrentWalletId (id : WalletId)

/-- Run an operation, and forget its result. -/
def RegistryOp.run (X : Externals) (ks : FileKeystore) (W : WalletLib) :
    RegistryOp → ServiceIo Unit
  | .importWallet draws entries name import_ source => do
    let _ ← WalletService.importWallet X ks W draws entries name import_ source
    pure ()
  | .deleteWallet entries id => do
    let _ ← WalletService.deleteWallet X ks entries id
    pure ()
  | .setCurrentWalletId id => WalletService.setCurrentWalletId id

end GemCore.WalletService
