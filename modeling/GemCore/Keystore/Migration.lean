import GemCore.Keystore.Import
import GemCore.Primitives.WalletId

/-!
# No secret is lost by an operation that fails

`GemKeystore` (`gemstone/src/keystore/keystore.rs`) adds the migration of a v3 file to the
operations of the file keystore: convert the file, check that its secret derives the wallet it
is migrated for, and only then remove it. This module runs any sequence of operations, each
with its own schedule of failing calls, and says which secrets are still there after one of
them has failed.

## Main definitions

* `migrateV3`, `verifyMigratedSecret` — the migration.
* `KeystoreOp`, `trace` — operations and their runs.
* `KeystoreOp.Keeps` — what an operation that failed has kept.

## Main results

* `failed_operation_keeps` — every failed operation of every run keeps it.
* `failed_operation_loses` — where a failed operation does lose a secret.
-/

namespace GemCore.Keystore

open Lib

/-! ## Migrating a v3 file -/

/-- `Account`, as far as a wallet id is derived from it. -/
structure Account where
  chain : Chain
  address : String

/-- The functions of `gem_derivation`; an error is its message. -/
structure Derivation where
  /-- `derive_accounts_from_mnemonic`. -/
  accountsFromMnemonic : String → List Chain → Except String (List Account)
  /-- `derive_account_from_private_key`. -/
  accountFromPrivateKey : List UInt8 → Chain → Except String Account
  /-- `derive_wallet_id_from_account`. -/
  walletIdFromAccount : Account → WalletType → Except String WalletId

/-- Programs of `GemKeystore`, whose `GemstoneError` is a message. -/
abbrev GemIo (α : Type) : Type := Proc Disk String α

/-- `From<KeystoreError> for GemstoneError`. -/
def liftIo {α : Type} (x : Io α) : GemIo α := x.mapError KeystoreError.text

section Migrate

variable (X : Externals) (D : Derivation) (ks : FileKeystore) (draws : Draws)

/-- `decrypt_mnemonic`. -/
def decryptMnemonic (keystoreId : String) (password : List UInt8) : Io String := do
  let payload ← decryptPayloadUnlocked X ks keystoreId password
  Proc.ofExcept payload.intoMnemonic

/-- `decrypt_private_key`. -/
def decryptPrivateKey (keystoreId : String) (password : List UInt8) : Io (List UInt8) := do
  let payload ← decryptPayloadUnlocked X ks keystoreId password
  Proc.ofExcept payload.intoPrivateKey

/-- The wallet type and chain `verify_migrated_secret` derives an account for. -/
def expectedAccount : WalletId → Except String (WalletType × Chain)
  | .multicoin _ => .ok (.multicoin, .ethereum)
  | .single chain _ => .ok (.single, chain)
  | .privateKey chain _ => .ok (.privateKey, chain)
  | .view _ _ => .error "view wallets have no keystore secret"

/-- The message of a secret that derives another wallet. -/
def mismatchMessage (expected derived : WalletId) (account : Account) : String :=
  "migrated secret does not derive the wallet id: expected_wallet_id=" ++ expected.id ++
    ", derived_wallet_id=" ++ derived.id ++ ", derived_chain=" ++ account.chain.asRef ++
    ", derived_address=" ++ account.address

/-- Private-key wallets hold private keys, the others phrases. -/
def kindMatchesType (kind : SecretKind) (walletType : WalletType) : Bool :=
  match kind with
  | .mnemonic => walletType != .privateKey
  | .privateKey => walletType == .privateKey

/-- The account `verify_migrated_secret` derives from the secret just stored. -/
def deriveMigrated (keystoreId : String) (password : List UInt8) (kind : SecretKind)
    (chain : Chain) : GemIo Account :=
  match kind with
  | .mnemonic => do
    let phrase ← liftIo (decryptMnemonic X ks keystoreId password)
    let accounts ← Proc.ofExcept (D.accountsFromMnemonic phrase [chain])
    Proc.ofExcept (okOr accounts.head? "wallet id account derivation returned no account")
  | .privateKey => do
    let privateKey ← liftIo (decryptPrivateKey X ks keystoreId password)
    Proc.ofExcept (D.accountFromPrivateKey privateKey chain)

/-- `verify_migrated_secret`. -/
def verifyMigratedSecret (keystoreId : String) (password : List UInt8) (expected : WalletId)
    (kind : SecretKind) : GemIo Unit := do
  let (walletType, chain) ← Proc.ofExcept (expectedAccount expected)
  if !kindMatchesType kind walletType then
    Proc.throw "migrated secret kind does not match wallet type"
  else do
    let account ← deriveMigrated X D ks keystoreId password kind chain
    let isLegacySingleSolanaMnemonic := walletType = .single ∧ chain = .solana ∧ kind = .mnemonic
    let derived ← Proc.ofExcept (D.walletIdFromAccount account walletType)
    if derived ≠ expected ∧ ¬isLegacySingleSolanaMnemonic then
      Proc.throw (mismatchMessage expected derived account)
    else pure ()

/-- The end of `migrate_v3`: remove the v3 file, which may be gone already. -/
def removeMigrated (v3Path : String) : GemIo Unit := do
  match ← ((removeFile v3Path).attempt : GemIo (Except KeystoreError Unit)) with
  | .ok () => pure ()
  | .error .notFound => pure ()
  | .error (.io message) => Proc.throw ("v3 cleanup failed: " ++ message)
  | .error error => Proc.throw ("v3 cleanup failed: " ++ error.text)

/-- `migrate_v3`. -/
def migrateV3 (v3Path : String) (v3Password newPassword : List UInt8) (walletId : String) :
    GemIo StoredSecretMeta := do
  let expected ← Proc.ofExcept (okOr (WalletId.fromId walletId) "invalid wallet id")
  let keystoreId := X.newV5 walletId
  let found ← liftIo (importV3 X ks draws v3Path v3Password newPassword (some keystoreId.value))
  match ← ((verifyMigratedSecret X D ks keystoreId.value newPassword expected found.kind).attempt :
      GemIo (Except String Unit)) with
  | .error error => do
    let _ ← ((delete ks keystoreId.value).attempt : GemIo (Except KeystoreError Bool))
    Proc.throw error
  | .ok () => do
    removeMigrated v3Path
    pure found

end Migrate

/-! ## Runs -/

/-- The operations that write to the keystore directory. -/
inductive KeystoreOp where
  | importMnemonic (phrase : String) (password : List UInt8) (keystoreId : Option String)
  | importPrivateKey (privateKey password : List UInt8) (keystoreId : Option String)
  | importV3 (v3Path : String) (v3Password newPassword : List UInt8) (keystoreId : Option String)
  | changePassword (keystoreId : String) (oldPassword newPassword : List UInt8)
  | migrateV3 (v3Path : String) (v3Password newPassword : List UInt8) (walletId : String)
  | deleteV3 (legacyId : String) (entries : List String)

/-- Run one operation. -/
def KeystoreOp.run (X : Externals) (D : Derivation) (ks : FileKeystore) (draws : Draws) :
    KeystoreOp → GemIo Unit
  | .importMnemonic phrase password keystoreId => do
    let _ ← liftIo (Keystore.importMnemonic X ks draws phrase password keystoreId)
  | .importPrivateKey privateKey password keystoreId => do
    let _ ← liftIo (Keystore.importPrivateKey X ks draws privateKey password keystoreId)
  | .importV3 v3Path v3Password newPassword keystoreId => do
    let _ ← liftIo (Keystore.importV3 X ks draws v3Path v3Password newPassword keystoreId)
  | .changePassword keystoreId oldPassword newPassword => do
    let _ ← liftIo (Keystore.changePassword X ks draws keystoreId oldPassword newPassword)
  | .migrateV3 v3Path v3Password newPassword walletId => do
    let _ ← Keystore.migrateV3 X D ks draws v3Path v3Password newPassword walletId
  | .deleteV3 legacyId entries => do
    let _ ← liftIo (Keystore.deleteV3 X ks legacyId entries)

/-- An operation of a run, with what it draws and the fate of its calls. -/
structure Step where
  op : KeystoreOp
  draws : Draws
  faults : List Fault

/-- What happened in one step. -/
structure Event where
  step : Step
  before : Disk
  outcome : Outcome String Unit
  after : Disk

/-- Run operations one after the other, whatever becomes of each. -/
def trace (X : Externals) (D : Derivation) (ks : FileKeystore) : List Step → Disk → List Event
  | [], _ => []
  | step :: steps, disk =>
    let result := step.op.run X D ks step.draws disk step.faults
    ⟨step, disk, result.1, result.2.1⟩ :: trace X D ks steps result.2.1

/-! ## What is kept -/

/-- Every secret that some password opened in a v4 file still opens with it. -/
def KeptV4 (X : Externals) (ks : FileKeystore) (before after : Disk) : Prop :=
  ∀ id password payload, before.openId X ks id password = .ok payload →
    after.openId X ks id password = .ok payload

/-- Every secret that some password opened in a v3 file at one of the paths still opens with
it. -/
def KeptV3 (X : Externals) (paths : String → Prop) (before after : Disk) : Prop :=
  ∀ path password secret, paths path → before.openV3 X path password = .ok secret →
    after.openV3 X path password = .ok secret

/-- Every file is still there, but for that of an id. -/
def KeptOthers (ks : FileKeystore) (id : KeystoreId) (before after : Disk) : Prop :=
  ∀ path bytes, path ≠ ks.pathForId id → before path = some bytes → after path = some bytes

/-- What an operation that did not succeed has kept.

* The imports keep every secret. `import_v3` takes the file of its id away when that is
  corrupt as a v4 file, so a v3 file lying there is not covered.
* `change_password` keeps every secret, that of its own id under the old password or the new.
* `migrate_v3` keeps every file but that of its id, and what `import_v3` keeps, if the file of its
  id did not open with the new password before.
* `delete_v3` keeps the files that do not match its legacy id. -/
def KeystoreOp.Keeps (X : Externals) (ks : FileKeystore) (draws : Draws) (before after : Disk) :
    KeystoreOp → Prop
  | .importMnemonic _ _ _ => KeptV4 X ks before after ∧ KeptV3 X (fun _ => True) before after
  | .importPrivateKey _ _ _ => KeptV4 X ks before after ∧ KeptV3 X (fun _ => True) before after
  | .importV3 _ _ _ keystoreId =>
    KeptV4 X ks before after ∧
      KeptV3 X (fun path => ∀ id, importId draws keystoreId = .ok id → path ≠ ks.pathForId id)
        before after
  | .changePassword keystoreId _ newPassword =>
    (∀ id password payload, before.openId X ks id password = .ok payload →
      after.openId X ks id password = .ok payload ∨
        (KeystoreId.parse keystoreId = .ok id ∧
          after.openId X ks id newPassword = .ok payload)) ∧
      KeptV3 X (fun _ => True) before after
  | .migrateV3 _ _ newPassword walletId =>
    KeptOthers ks (X.newV5 walletId) before after ∧
      ((∀ payload, before.openId X ks (X.newV5 walletId) newPassword ≠ .ok payload) →
        KeptV4 X ks before after ∧
          KeptV3 X (fun path => path ≠ ks.pathForId (X.newV5 walletId)) before after)
  | .deleteV3 legacyId _ =>
    ∀ path, (∀ name, path = ks.join name →
        ¬MatchesV3 X ks before (X.toLowercase legacyId) name) → after path = before path

section Keeps

variable {X : Externals} {D : Derivation} {ks : FileKeystore} {draws : Draws}
  {before after : Disk}

/-- The drawn suffix of the staging file is not in use. -/
def FreshDraws (ks : FileKeystore) (draws : Draws) (disk : Disk) : Prop :=
  ∀ id, disk (ks.tempPath id draws.tempId) = none

/-- Files are at most added. -/
def Extends (before after : Disk) : Prop :=
  ∀ path bytes, before path = some bytes → after path = some bytes

lemma Extends.keptV4 (h : Extends before after) : KeptV4 X ks before after := by
  intro id password payload hopen
  rw [Disk.openId] at hopen ⊢
  split at hopen
  · rename_i bytes hbytes
    rw [h _ _ hbytes]
    exact hopen
  · cases hopen

lemma Extends.keptV3 (h : Extends before after) (paths : String → Prop) :
    KeptV3 X paths before after := by
  intro path password secret _ hopen
  rw [Disk.openV3] at hopen ⊢
  split at hopen
  · rename_i bytes hbytes
    rw [h _ _ hbytes]
    exact hopen
  · cases hopen

/-- An import that broke off has at most added files. -/
lemma Broken.extends {id : KeystoreId} (hfresh : FreshDraws ks draws before)
    (h : Broken ks draws id before after) : Extends before after := by
  intro path bytes hbytes
  rcases h with rfl | ⟨habsent, content, hw⟩
  · exact hbytes
  · have hpath : path ≠ ks.pathForId id := by
      rintro rfl
      simp [habsent] at hbytes
    have htemp : path ≠ ks.tempPath id draws.tempId := by
      rintro rfl
      simp [hfresh id] at hbytes
    rw [hw.frame path hpath htemp, hbytes]

lemma KeptV4.trans {middle : Disk} (h : KeptV4 X ks before middle)
    (h' : KeptV4 X ks middle after) : KeptV4 X ks before after :=
  fun id password payload hopen => h' _ _ _ (h id password payload hopen)

lemma KeptV3.trans {middle : Disk} {paths : String → Prop} (h : KeptV3 X paths before middle)
    (h' : KeptV3 X paths middle after) : KeptV3 X paths before after :=
  fun path password secret hp hopen => h' _ _ _ hp (h path password secret hp hopen)

/-- The cipher and key derivation are ideal on every file of the disk. -/
def OneKeyFiles (X : Externals) (disk : Disk) : Prop :=
  ∀ path bytes, disk path = some bytes → OneKey X bytes

/-- The file `import_v3` takes away held nothing that a password opens. -/
lemma Cleared.keptV4 (hX : X.Lawful) (hone : OneKeyFiles X before) {id : KeystoreId}
    {password : List UInt8} (h : Cleared X ks password id before after) :
    KeptV4 X ks before after := by
  intro id' password' payload hopen
  rcases h with rfl | ⟨rfl, e, hcorrupt, he⟩
  · exact hopen
  · by_cases hid : ks.pathForId id' = ks.pathForId id
    · obtain rfl := pathForId_injective ks hid
      rw [Disk.openId] at hopen he
      split at hopen
      · rename_i bytes hbytes
        simp only [hbytes] at he
        exact absurd hopen (not_opens_of_corrupt hX (hone _ _ hbytes) he hcorrupt)
      · cases hopen
    · simpa [Disk.openId, hid] using hopen

lemma Cleared.keptV3 {id : KeystoreId} {password : List UInt8} {paths : String → Prop}
    (hpaths : ∀ path, paths path → path ≠ ks.pathForId id)
    (h : Cleared X ks password id before after) : KeptV3 X paths before after := by
  intro path password' secret hp hopen
  rcases h with rfl | ⟨rfl, -⟩
  · exact hopen
  · simpa [Disk.openV3, hpaths path hp] using hopen

lemma Cleared.fresh {id : KeystoreId} {password : List UInt8}
    (hfresh : FreshDraws ks draws before) (h : Cleared X ks password id before after) :
    FreshDraws ks draws after := by
  intro id'
  rcases h with rfl | ⟨rfl, -⟩
  · exact hfresh id'
  · rw [Function.update_of_ne (tempPath_ne_pathForId ks id' draws.tempId id).symm]
    exact hfresh id'

/-- What an `import_v3` that broke off has kept. -/
lemma BrokenV3.kept (hX : X.Lawful) (hone : OneKeyFiles X before)
    (hfresh : FreshDraws ks draws before) {id : KeystoreId} {newPassword : List UInt8}
    {paths : String → Prop} (hpaths : ∀ path, paths path → path ≠ ks.pathForId id)
    (h : BrokenV3 X ks draws newPassword id before after) :
    KeptV4 X ks before after ∧ KeptV3 X paths before after := by
  obtain ⟨middle, hc, hb⟩ := h
  have hext := hb.extends (hc.fresh hfresh)
  exact ⟨(hc.keptV4 hX hone).trans hext.keptV4, (hc.keptV3 hpaths).trans (hext.keptV3 _)⟩

/-- What a `change_password` that broke off has kept: the file is whole, sealed with the old
password or with the new. -/
theorem Wrote.kept (hX : X.Lawful) (hone : OneKeyFiles X before)
    (hfresh : FreshDraws ks draws before) {id : KeystoreId} {oldPassword newPassword : List UInt8}
    {payload : SecretPayload} {bytes : List UInt8}
    (hold : before.openId X ks id oldPassword = .ok payload)
    (hbytes : encryptSecret X draws ks.defaultKdf payload newPassword id = .ok bytes)
    (h : Wrote (ks.pathForId id) (ks.tempPath id draws.tempId) bytes before after) :
    (∀ id' password payload', before.openId X ks id' password = .ok payload' →
      after.openId X ks id' password = .ok payload' ∨
        (id' = id ∧ after.openId X ks id newPassword = .ok payload')) ∧
      KeptV3 X (fun _ => True) before after := by
  obtain ⟨content, hcontent, hopen⟩ : ∃ content, before (ks.pathForId id) = some content ∧
      openFile X content id oldPassword = .ok payload := by
    rw [Disk.openId] at hold
    split at hold
    · exact ⟨_, ‹_›, hold⟩
    · cases hold
  constructor
  · intro id' password payload' hopen'
    by_cases hid : ks.pathForId id' = ks.pathForId id
    · obtain rfl := pathForId_injective ks hid
      rcases h.target with hsame | hnew
      · left
        simpa [Disk.openId, hsame] using hopen'
      · right
        have hpayload : payload = payload' := by
          simp only [Disk.openId, hcontent] at hopen'
          exact openFile_unique (hone _ _ hcontent) hopen hopen'
        rw [Disk.openId, hnew]
        exact ⟨rfl, hpayload ▸ (openFile_encryptSecret hX hbytes).1⟩
    · left
      rwa [Disk.openId, h.frame _ hid (tempPath_ne_pathForId ks id draws.tempId id')]
  · intro path password secret _ hv3
    rw [Disk.openV3] at hv3 ⊢
    split at hv3
    · rename_i bytes' hbytes'
      have hpath : path ≠ ks.pathForId id := by
        rintro rfl
        rw [hcontent] at hbytes'
        obtain rfl := Option.some.inj hbytes'
        exact openFileV3_ne_ok_of_openFile hX hopen hv3
      have htemp : path ≠ ks.tempPath id draws.tempId := by
        rintro rfl
        simp [hfresh id] at hbytes'
      rw [h.frame path hpath htemp, hbytes']
      exact hv3
    · cases hv3

/-! ## The operations -/

/-- An operation lifted to `GemKeystore`, its result dropped. -/
lemma liftIo_all {α : Type} {x : Io α} {E S : Disk → Prop}
    (h : x.All before (fun _ _ => True) (fun _ => E) S) :
    (do let _ ← liftIo x : GemIo Unit).All before (fun _ _ => True) (fun _ => E) S := by
  apply Proc.All.bind
  apply Proc.All.mapError
  exact h.mono (fun _ _ _ => Proc.All.pure trivial) (fun _ _ he => he) fun _ hs => hs

/-- Deriving the account of the migrated secret changes nothing. -/
lemma deriveMigrated_readOnly (keystoreId : String) (password : List UInt8) (kind : SecretKind)
    (chain : Chain) : (deriveMigrated X D ks keystoreId password kind chain).ReadOnly := by
  have hdecrypt : (decryptPayloadUnlocked X ks keystoreId password).ReadOnly :=
    decryptPayloadUnlocked_readOnly keystoreId password
  cases kind with
  | mnemonic =>
    apply Proc.ReadOnly.bind ((hdecrypt.bind fun _ => .ofExcept _).mapError _)
    intro phrase
    exact (Proc.ReadOnly.ofExcept _).bind fun _ => .ofExcept _
  | privateKey =>
    apply Proc.ReadOnly.bind ((hdecrypt.bind fun _ => .ofExcept _).mapError _)
    exact fun _ => .ofExcept _

/-- Checking the migrated secret changes nothing. -/
lemma verifyMigratedSecret_readOnly (keystoreId : String) (password : List UInt8)
    (expected : WalletId) (kind : SecretKind) :
    (verifyMigratedSecret X D ks keystoreId password expected kind).ReadOnly := by
  apply Proc.ReadOnly.bind (.ofExcept _)
  rintro ⟨walletType, chain⟩
  simp only
  split
  · exact .throw _
  · apply (deriveMigrated_readOnly _ _ _ _).bind
    intro account
    apply Proc.ReadOnly.bind (.ofExcept _)
    intro derived
    split
    · exact .throw _
    · exact .pure _

/-- What holds after a failed `migrate_v3`: what holds before it, whenever the import breaks off,
and after an import that succeeded, also when the file of the id is deleted then. -/
theorem migrateV3_all {E : Disk → Prop} (hbefore : E before) {walletId : String}
    {newPassword : List UInt8}
    (hbroken : ∀ after, BrokenV3 X ks draws newPassword (X.newV5 walletId) before after → E after)
    {v3Path : String} {v3Password : List UInt8}
    (hstored : ∀ stored, ImportedV3 X ks draws v3Path v3Password newPassword (X.newV5 walletId)
      before stored → E stored ∧
        E (Function.update stored (ks.pathForId (X.newV5 walletId)) none)) :
    (migrateV3 X D ks draws v3Path v3Password newPassword walletId).All before (fun _ _ => True)
      (fun _ => E) E := by
  have hbreak {after : Disk} (h : after = before ∨ ∃ id,
      importId draws (some (X.newV5 walletId).value) = .ok id ∧
        BrokenV3 X ks draws newPassword id before after) : E after := by
    rcases h with rfl | ⟨id, hid, h⟩
    · exact hbefore
    · obtain rfl : X.newV5 walletId = id := by simpa [importId] using hid
      exact hbroken after h
  refine Proc.All.bind (Proc.All.ofExcept (fun expected _ => ?_) fun _ _ => hbefore)
  apply Proc.All.bind
  apply Proc.All.mapError
  refine (importV3_all v3Path v3Password newPassword _).mono ?_ (fun _ _ => hbreak)
    fun _ => hbreak
  rintro found stored ⟨id, hid, himport⟩
  obtain rfl : X.newV5 walletId = id := by simpa [importId] using hid
  obtain ⟨hkept, hgone⟩ := hstored stored himport
  apply Proc.All.bind
  apply Proc.All.attempt
  apply (verifyMigratedSecret_readOnly _ _ _ _ _).mono
  · rintro ⟨⟩ _ rfl
    apply Proc.All.bind
    apply Proc.All.bind
    apply Proc.All.attempt
    refine fsCall_all ?_ ?_ hkept
    · intro _ removed _
      exact Proc.All.pure (Proc.All.pure trivial)
    · intro e
      split
      · exact Proc.All.pure (Proc.All.pure trivial)
      · exact Proc.All.pure (Proc.All.pure trivial)
      · exact Proc.All.throw hkept
      · exact Proc.All.throw hkept
  · rintro error stored rfl
    have hdeleted {after : Disk} (h : after = stored ∨
        after = Function.update stored (ks.pathForId (X.newV5 walletId)) none) : E after := by
      rcases h with rfl | rfl
      · exact hkept
      · exact hgone
    apply Proc.All.bind
    apply Proc.All.attempt
    exact (delete_all _).mono (fun _ _ h => Proc.All.throw (hdeleted h))
      (fun _ _ h => Proc.All.throw (hdeleted h)) fun _ h => hdeleted h
  · rintro _ rfl
    exact hkept

lemma KeptOthers.cleared {id : KeystoreId} {password : List UInt8}
    (h : Cleared X ks password id before after) : KeptOthers ks id before after := by
  intro path bytes hpath hbytes
  rcases h with rfl | ⟨rfl, -⟩
  · exact hbytes
  · rwa [Function.update_of_ne hpath]

lemma KeptOthers.update {id : KeystoreId} {content : Option (List UInt8)}
    (h : KeptOthers ks id before after) :
    KeptOthers ks id before (Function.update after (ks.pathForId id) content) := by
  intro path bytes hpath hbytes
  rw [Function.update_of_ne hpath]
  exact h path bytes hpath hbytes

/-- `migrate_v3` writes and deletes no file but that of its id. -/
lemma migrateV3_keepsOthers (hfresh : FreshDraws ks draws before) (v3Path : String)
    (v3Password newPassword : List UInt8) (walletId : String) :
    (migrateV3 X D ks draws v3Path v3Password newPassword walletId).All before (fun _ _ => True)
      (fun _ => KeptOthers ks (X.newV5 walletId) before)
      (KeptOthers ks (X.newV5 walletId) before) := by
  refine migrateV3_all (fun _ _ _ h => h) ?_ ?_
  · rintro after ⟨cleared, hc, hb⟩ path bytes hpath hbytes
    exact hb.extends (hc.fresh hfresh) _ _ (KeptOthers.cleared hc path bytes hpath hbytes)
  · intro stored himport
    have hkept : KeptOthers ks (X.newV5 walletId) before stored := by
      rcases himport with ⟨rfl, -⟩ | ⟨cleared, _, _, hc, -, -, ⟨rfl, -⟩ | ⟨-, bytes, -, rfl⟩⟩
      · exact fun _ _ _ h => h
      · exact KeptOthers.cleared hc
      · exact (KeptOthers.cleared hc).update
    exact ⟨hkept, hkept.update⟩

/-- `migrate_v3` keeps every secret if the file of its id did not open with the new password:
what it deletes after a failed check, it wrote itself. -/
theorem migrateV3_keeps (hX : X.Lawful) (hone : OneKeyFiles X before)
    (hfresh : FreshDraws ks draws before) (v3Path : String) (v3Password newPassword : List UInt8)
    (walletId : String)
    (hnot : ∀ payload, before.openId X ks (X.newV5 walletId) newPassword ≠ .ok payload) :
    (migrateV3 X D ks draws v3Path v3Password newPassword walletId).All before (fun _ _ => True)
      (fun _ after => KeptV4 X ks before after ∧
        KeptV3 X (fun path => path ≠ ks.pathForId (X.newV5 walletId)) before after)
      (fun after => KeptV4 X ks before after ∧
        KeptV3 X (fun path => path ≠ ks.pathForId (X.newV5 walletId)) before after) := by
  refine migrateV3_all ⟨fun _ _ _ h => h, fun _ _ _ _ h => h⟩
    (fun after h => h.kept hX hone hfresh fun _ hp => hp) ?_
  intro stored himport
  -- The file of the id was missing or corrupt, and the import wrote a new one.
  obtain ⟨cleared, bytes, hc, habsent, rfl⟩ : ∃ cleared bytes,
      Cleared X ks newPassword (X.newV5 walletId) before cleared ∧
        cleared (ks.pathForId (X.newV5 walletId)) = none ∧
        stored = Function.update cleared (ks.pathForId (X.newV5 walletId)) (some bytes) := by
    rcases himport with ⟨-, held, hheld⟩ | ⟨cleared, _, _, hc, -, -, himported⟩
    · exact absurd hheld (hnot held)
    · rcases himported with ⟨rfl, held, hheld⟩ | ⟨habsent, bytes, -, rfl⟩
      · exact absurd (hc.opens_nothing hheld ▸ hheld) (hnot held)
      · exact ⟨cleared, bytes, hc, habsent, rfl⟩
  have hcleared : KeptV4 X ks before cleared ∧
      KeptV3 X (fun path => path ≠ ks.pathForId (X.newV5 walletId)) before cleared :=
    ⟨hc.keptV4 hX hone, hc.keptV3 fun _ hp => hp⟩
  have hext : Extends cleared
      (Function.update cleared (ks.pathForId (X.newV5 walletId)) (some bytes)) := by
    intro path content hcontent
    have hpath : path ≠ ks.pathForId (X.newV5 walletId) := by
      rintro rfl
      simp [habsent] at hcontent
    rw [Function.update_of_ne hpath, hcontent]
  -- Deleting the new file takes the disk back to where the conversion started.
  rw [Function.update_idem, ← habsent, Function.update_eq_self]
  exact ⟨⟨hcleared.1.trans hext.keptV4, hcleared.2.trans (hext.keptV3 _)⟩, hcleared⟩

/-- Every operation keeps what it promises when it does not succeed. -/
lemma KeystoreOp.run_keeps (hX : X.Lawful) (hone : OneKeyFiles X before)
    (hfresh : FreshDraws ks draws before) (op : KeystoreOp) :
    (op.run X D ks draws).All before (fun _ _ => True)
      (fun _ after => op.Keeps X ks draws before after)
      (fun after => op.Keeps X ks draws before after) := by
  have himport (payload : SecretPayload) (password : List UInt8) (keystoreId : Option String) :
      (importPayloadUnlocked X ks draws payload password keystoreId).All before
        (fun _ _ => True) (fun _ => Extends before) (Extends before) := by
    have hext {after : Disk} (h : after = before ∨ ∃ id, importId draws keystoreId = .ok id ∧
        Broken ks draws id before after) : Extends before after := by
      rcases h with rfl | ⟨id, -, h⟩
      · exact fun _ _ h => h
      · exact h.extends hfresh
    exact (importPayloadUnlocked_all payload password keystoreId).mono (fun _ _ _ => trivial)
      (fun _ _ => hext) fun _ => hext
  cases op with
  | importMnemonic phrase password keystoreId | importPrivateKey privateKey password keystoreId =>
    apply liftIo_all
    apply Proc.All.bind
    apply Proc.All.ofExcept
    · exact fun payload _ => (himport payload password keystoreId).mono (fun _ _ _ => trivial)
        (fun _ _ h => ⟨h.keptV4, h.keptV3 _⟩) fun _ h => ⟨h.keptV4, h.keptV3 _⟩
    · exact fun _ _ => ⟨fun _ _ _ h => h, fun _ _ _ _ h => h⟩
  | importV3 v3Path v3Password newPassword keystoreId =>
    have hkeeps {after : Disk} (h : after = before ∨ ∃ id, importId draws keystoreId = .ok id ∧
        BrokenV3 X ks draws newPassword id before after) :
        (KeystoreOp.importV3 v3Path v3Password newPassword keystoreId).Keeps X ks draws before
          after := by
      rcases h with rfl | ⟨id, hid, h⟩
      · exact ⟨fun _ _ _ h => h, fun _ _ _ _ h => h⟩
      · exact h.kept hX hone hfresh fun path hp => hp id hid
    apply liftIo_all
    exact (importV3_all v3Path v3Password newPassword keystoreId).mono (fun _ _ _ => trivial)
      (fun _ _ => hkeeps) fun _ => hkeeps
  | changePassword keystoreId oldPassword newPassword =>
    have hkeeps {after : Disk} (h : after = before ∨ ∃ id payload bytes,
        KeystoreId.parse keystoreId = .ok id ∧ before.openId X ks id oldPassword = .ok payload ∧
        encryptSecret X draws ks.defaultKdf payload newPassword id = .ok bytes ∧
        Wrote (ks.pathForId id) (ks.tempPath id draws.tempId) bytes before after) :
        (KeystoreOp.changePassword keystoreId oldPassword newPassword).Keeps X ks draws before
          after := by
      rcases h with rfl | ⟨id, payload, bytes, hid, hopen, hbytes, hw⟩
      · exact ⟨fun _ _ _ h => .inl h, fun _ _ _ _ h => h⟩
      · obtain ⟨h4, h3⟩ := hw.kept hX hone hfresh hopen hbytes
        refine ⟨fun id' password payload' h => ?_, h3⟩
        rcases h4 id' password payload' h with h | ⟨rfl, h⟩
        · exact .inl h
        · exact .inr ⟨hid, h⟩
    apply liftIo_all
    exact (changePassword_all keystoreId oldPassword newPassword).mono (fun _ _ _ => trivial)
      (fun _ _ => hkeeps) fun _ => hkeeps
  | migrateV3 v3Path v3Password newPassword walletId =>
    have hkeeps : (Keystore.migrateV3 X D ks draws v3Path v3Password newPassword walletId).All
        before (fun _ _ => True)
        (fun _ after => KeystoreOp.Keeps X ks draws before after
          (.migrateV3 v3Path v3Password newPassword walletId))
        (fun after => KeystoreOp.Keeps X ks draws before after
          (.migrateV3 v3Path v3Password newPassword walletId)) := by
      intro faults
      have hothers := migrateV3_keepsOthers (X := X) (D := D) hfresh v3Path v3Password newPassword
        walletId faults
      have hkept := fun hnot => migrateV3_keeps (D := D) hX hone hfresh v3Path v3Password
        newPassword walletId hnot faults
      generalize Keystore.migrateV3 X D ks draws v3Path v3Password newPassword walletId before
        faults = result at hothers hkept ⊢
      rcases result with ⟨_ | _ | _, after, rest⟩
      · trivial
      · exact ⟨hothers, hkept⟩
      · exact ⟨hothers, hkept⟩
    apply Proc.All.bind
    exact hkeeps.mono (fun _ _ _ => Proc.All.pure trivial) (fun _ _ h => h) fun _ h => h
  | deleteV3 legacyId entries =>
    have hkeeps {after : Disk} (h : DeletedV3 X ks (X.toLowercase legacyId) before after) :
        (KeystoreOp.deleteV3 legacyId entries).Keeps X ks draws before after := by
      intro path hpath
      rcases h path with h | ⟨-, name, hname, hmatch⟩
      · exact h
      · exact absurd hmatch (hpath name hname)
    apply liftIo_all
    exact (deleteV3_all legacyId entries).mono (fun _ _ _ => trivial) (fun _ _ => hkeeps)
      fun _ => hkeeps

end Keeps

/-- In every run of import, `import_v3`, `change_password`, `migrate_v3` and `delete_v3`, with
failures and stops at any file-system calls, an operation that did not succeed has kept what
`KeystoreOp.Keeps` says.

**Proof sketch.** Each operation changes the disk by whole files only: it stages a file under
an unused name, renames it over its target, or removes a file. For each it is known what the
disk may look like when the run breaks off, and none of these disks has lost a secret. Since
nothing is assumed of the disk an operation starts from, the operations before it do not
matter. -/
theorem failed_operation_keeps {X : Externals} (hX : X.Lawful) (D : Derivation)
    (ks : FileKeystore) (steps : List Step) (disk : Disk) :
    ∀ event ∈ trace X D ks steps disk, FreshDraws ks event.step.draws event.before →
      OneKeyFiles X event.before → event.outcome ≠ .ok () →
      event.step.op.Keeps X ks event.step.draws event.before event.after := by
  induction steps generalizing disk with
  | nil => simp [trace]
  | cons step steps ih =>
    intro event hevent
    rw [trace, List.mem_cons] at hevent
    rcases hevent with rfl | hevent
    · intro hfresh hone hfail
      have h := KeystoreOp.run_keeps (D := D) hX hone hfresh step.op step.faults
      revert h hfail
      generalize step.op.run X D ks step.draws disk step.faults = result
      intro hfail h
      rcases result with ⟨_ | _ | _, after, rest⟩
      · exact absurd rfl hfail
      · exact h
      · exact h
    · exact ih _ event hevent

/-! ## Concrete failures -/

/-- The reference implementation derives one address. -/
def sampleDerivation : Derivation where
  accountsFromMnemonic _ chains := .ok (chains.map fun chain => ⟨chain, "0x12345678901"⟩)
  accountFromPrivateKey _ chain := .ok ⟨chain, "0x12345678901"⟩
  walletIdFromAccount account walletType :=
    match walletType with
    | .multicoin => .ok (.multicoin account.address)
    | .single => .ok (.single account.chain account.address)
    | .privateKey => .ok (.privateKey account.chain account.address)
    | .view => .ok (.view account.chain account.address)

/-- The bytes of a v3 file that the password `[1, 2, 3]` opens. -/
def sampleV3 : List UInt8 := fileBytesV3 "legacy" (pad16 [1, 2, 3]) (List.replicate 32 7)

/-- A change of the password that fails at the rename. -/
def sampleStep : Step :=
  ⟨.changePassword sampleId.value [1, 2, 3] [4], sampleDraws,
    List.replicate 6 .pass ++ [.fail "disk full"]⟩

/-- What happens to it after the sample import. -/
def sampleEvent : Event :=
  let result := sampleStep.op.run reference sampleDerivation sampleKeystore sampleStep.draws
    sampleDisk sampleStep.faults
  ⟨sampleStep, sampleDisk, result.1, result.2.1⟩

lemma sampleDisk_eq :
    ∃ bytes, sampleDisk =
      Function.update (fun _ => none) (sampleKeystore.pathForId sampleId) (some bytes) := by
  obtain ⟨id, payload, hid, himported⟩ := (importPrivateKey_all [7, 7] [1, 2, 3] _).of_ok
    (show importPrivateKey reference sampleKeystore sampleDraws [7, 7] [1, 2, 3]
      (some sampleId.value) (fun _ => none) [] = _ from sampleImport_eq)
  obtain rfl : sampleId = id := by simpa [importId] using hid
  rcases himported with ⟨-, held, hheld⟩ | ⟨-, bytes, -, h⟩
  · simp [Disk.openId] at hheld
  · exact ⟨bytes, h⟩

lemma freshDraws_sampleDisk : FreshDraws sampleKeystore sampleDraws sampleDisk := by
  intro id
  obtain ⟨bytes, hbytes⟩ := sampleDisk_eq
  rw [hbytes, Function.update_of_ne (tempPath_ne_pathForId _ _ _ _).symm]

/-- The failed change of password keeps the secret. -/
theorem failed_operation_keeps_sample :
    sampleEvent.outcome = .error "IO error: disk full" ∧
      sampleEvent.step.op.Keeps reference sampleKeystore sampleEvent.step.draws
        sampleEvent.before sampleEvent.after := by
  have hfail : sampleEvent.outcome = .error "IO error: disk full" := by decide +kernel
  refine ⟨hfail, ?_⟩
  apply failed_operation_keeps reference_lawful sampleDerivation sampleKeystore [sampleStep]
    sampleDisk sampleEvent
  · simp only [trace, sampleEvent, List.mem_cons, true_or]
  · simp only [sampleEvent]
    exact freshDraws_sampleDisk
  · exact fun _ bytes _ => reference_oneKey bytes
  · rw [hfail]
    exact fun h => by cases h

/-- Four operations that fail and after which a secret no longer opens as it did.

* `delete_v3` has removed the v3 file when the sync of the directory fails.
* `change_password` has replaced the file when the sync of the directory fails: the old
  password no longer opens it.
* `import_v3` finds the v3 file lying at the path of the id, takes it for a corrupt v4 file
  and removes it.
* `migrate_v3` is run again after a migration, when the v3 file is gone; the check of the
  stored secret fails to read it, and the v4 file is deleted. -/
theorem failed_operation_loses :
    (let disk : Disk := Function.update (fun _ => none) "keystore/legacy" (some sampleV3)
     let result := (KeystoreOp.deleteV3 "legacy" ["legacy"]).run reference sampleDerivation
       sampleKeystore sampleDraws disk (List.replicate 3 .pass ++ [.fail "sync"])
     (disk.openV3 reference "keystore/legacy" [1, 2, 3]).toOption =
         some (.privateKey (List.replicate 32 7)) ∧
       result.1 = .error "IO error: sync" ∧ result.2.1 "keystore/legacy" = none) ∧
    (let result := (KeystoreOp.changePassword sampleId.value [1, 2, 3] [4]).run reference
       sampleDerivation sampleKeystore sampleDraws sampleDisk
       (List.replicate 7 .pass ++ [.fail "sync"])
     (sampleDisk.openId reference sampleKeystore sampleId [1, 2, 3]).toOption =
         some (.privateKey [7, 7]) ∧
       result.1 = .error "IO error: sync" ∧
       (Disk.openId reference sampleKeystore result.2.1 sampleId [1, 2, 3]).toOption = none) ∧
    (let path := sampleKeystore.pathForId sampleId
     let disk : Disk := Function.update (fun _ => none) path (some sampleV3)
     let result := (KeystoreOp.importV3 path [1, 2, 3] [4] (some sampleId.value)).run reference
       sampleDerivation sampleKeystore sampleDraws disk []
     (disk.openV3 reference path [1, 2, 3]).toOption =
         some (.privateKey (List.replicate 32 7)) ∧
       result.1 = .error "Not found" ∧ result.2.1 path = none) ∧
    (let result := (KeystoreOp.migrateV3 "keystore/legacy" [1, 2, 3] [1, 2, 3]
         "privateKey_ethereum_0x12345678901").run reference sampleDerivation sampleKeystore
         sampleDraws sampleDisk [.pass, .fail "read"]
     (sampleDisk.openId reference sampleKeystore sampleId [1, 2, 3]).toOption =
         some (.privateKey [7, 7]) ∧
       result.1 = .error "IO error: read" ∧
       result.2.1 (sampleKeystore.pathForId sampleId) = none) := by
  decide +kernel

end GemCore.Keystore
