import GemCore.Keystore.FileKeystore
import GemCore.Primitives.WalletId

/-!
# Migrating wallets to the shared password

`GemWalletService::migrate_to_shared_password` (`gemstone/src/services/wallet/mod.rs`) takes
every wallet that still has a password of its own, re-encrypts its keystore file with the
password shared by all wallets, and then deletes the wallet's own password. Files and
passwords live in two stores, and a run can break off between any two calls to either.

## Main definitions

* `Device` — the files, the wallets and the passwords of a device.
* `migrateWalletPassword`, `migrateToSharedPassword` — the migration of one wallet, and of all.
* `Progress` — how far a wallet can have come when a run breaks off.

## Main results

* `migrateWalletPassword_all` — one wallet makes progress and no other wallet is touched.
* `migrateLoop_all` — nor do the wallets of a run.
-/

namespace GemCore.Keystore

open Lib (Proc)

/-! ## The migration -/

/-- `Wallet`, as far as the migration reads it. -/
structure Wallet where
  id : WalletId
  walletType : WalletType

/-- What the service works on: the keystore directory, the wallets of the store, and the
password store with the shared password, the one it would create, and those of single
wallets. -/
structure Device where
  disk : Disk
  wallets : List Wallet
  shared : Option String
  created : String
  aliases : WalletId → Option String

/-- Programs of the service; an error is the message of a `GemServiceError`. -/
abbrev ServiceIo (α : Type) : Type := Proc Device String α

/-- A call of a store; failures are reported with their message. -/
def storeCall {α : Type} (f : Device → α × Device) : ServiceIo α := Proc.call id fun d => .ok (f d)

/-- `GemWalletStore::get_wallets`. -/
def getWallets : ServiceIo (List Wallet) := storeCall fun d => (d.wallets, d)

/-- `GemKeystorePassword::get_wallet_password`. -/
def getWalletPassword (id : WalletId) : ServiceIo (Option String) :=
  storeCall fun d => (d.aliases id, d)

/-- `GemKeystorePassword::get_password`, creating the password when it is missing. -/
def getPassword : ServiceIo String := storeCall fun d =>
  match d.shared with
  | some password => (password, d)
  | none => (d.created, { d with shared := some d.created })

/-- `GemKeystorePassword::delete_wallet_password`. -/
def deleteWalletPassword (id : WalletId) : ServiceIo Unit := storeCall fun d =>
  ((), { d with aliases := Function.update d.aliases id none })

/-- Put a disk into a device. -/
def Device.setDisk (disk : Disk) (d : Device) : Device := { d with disk := disk }

/-- An operation of the keystore, with its errors kept. -/
def onDisk {α : Type} (x : Io α) : ServiceIo (Except KeystoreError α) :=
  (Proc.zoom Device.disk Device.setDisk x).attempt

/-- `decode_password`: hex, or else the text itself. -/
def decodePassword (password : String) : List UInt8 :=
  (decodeHexPairs (dropHexMark password.toList)).getD (utf8 password)

section Migration

variable (X : Externals) (ks : FileKeystore) (draws : WalletId → Draws)

/-- `keystore_id_for_wallet`. -/
def keystoreIdForWallet (id : WalletId) : KeystoreId := X.newV5 id.id

/-- `GemKeystore::exists`. -/
def keystoreExists (id : KeystoreId) : ServiceIo Bool := do
  match ← onDisk (getMetaUnlocked X ks id.value) with
  | .ok (some _) => pure true
  | _ => pure false

/-- `GemKeystore::opens_with`. -/
def opensWith (id : KeystoreId) (password : List UInt8) : ServiceIo Bool := do
  match ← onDisk (verifyUnlocked X ks id.value password) with
  | .ok _ => pure true
  | .error _ => pure false

/-- The part of `migrate_wallet_password` that re-encrypts the file. -/
def rekeyWallet (wallet : WalletId) (password shared : String) : ServiceIo Unit := do
  let id := keystoreIdForWallet X wallet
  match ← onDisk (changePassword X ks (draws wallet) id.value (decodePassword password)
      (decodePassword shared)) with
  | .error error => Proc.throw error.text
  | .ok _ => do
    let opens ← opensWith X ks id (decodePassword shared)
    if !opens then Proc.throw "did not accept the shared password" else pure ()

/-- Whether `migrate_wallet_password` re-encrypts: not when the password is the shared one,
and not when the file opens with that. -/
def needsRekey (wallet : WalletId) (password shared : String) : ServiceIo Bool :=
  if password = shared then pure false
  else do
    let opens ← opensWith X ks (keystoreIdForWallet X wallet) (decodePassword shared)
    pure !opens

/-- `migrate_wallet_password`. -/
def migrateWalletPassword (wallet : WalletId) (password shared : String) : ServiceIo Bool := do
  let present ← keystoreExists X ks (keystoreIdForWallet X wallet)
  if !present then pure false
  else do
    let rekeyed ← needsRekey X ks wallet password shared
    if rekeyed then rekeyWallet X ks draws wallet password shared else pure ()
    deleteWalletPassword wallet
    pure rekeyed

/-- The wallets with a password of their own, in order; an error of the password store ends
the search. -/
def collectLegacy : List Wallet → ServiceIo (List (WalletId × String))
  | [] => pure []
  | wallet :: wallets =>
    if wallet.walletType = .view then collectLegacy wallets
    else do
      match ← getWalletPassword wallet.id with
      | some password => do
        let legacy ← collectLegacy wallets
        pure ((wallet.id, password) :: legacy)
      | none => collectLegacy wallets

/-- The loop of `migrate_to_shared_password`: how many wallets were re-encrypted, and the
failures. -/
def migrateLoop (shared : String) : List (WalletId × String) → ServiceIo (ℕ × List String)
  | [] => pure (0, [])
  | (wallet, password) :: legacy => do
    match ← ((migrateWalletPassword X ks draws wallet password shared).attempt :
        ServiceIo (Except String Bool)) with
    | .ok rekeyed => do
      let (migrated, failures) ← migrateLoop shared legacy
      pure (if rekeyed then migrated + 1 else migrated, failures)
    | .error error => do
      let (migrated, failures) ← migrateLoop shared legacy
      pure (migrated, ("keystore " ++ wallet.id ++ ": " ++ error) :: failures)

/-- `migrate_to_shared_password`. -/
def migrateToSharedPassword : ServiceIo ℕ := do
  let wallets ← getWallets
  let legacy ← collectLegacy wallets
  if legacy = [] then pure 0
  else do
    let shared ← getPassword
    let (migrated, failures) ← migrateLoop X ks draws shared legacy
    if failures = [] then pure migrated
    else Proc.throw ("; ".intercalate failures)

end Migration

/-! ## How far one wallet comes -/

section Progress

variable (X : Externals) (ks : FileKeystore) (draws : WalletId → Draws)

/-- The file of a wallet's keystore. -/
def walletPath (wallet : WalletId) : String := ks.pathForId (keystoreIdForWallet X wallet)

/-- What a device holds for one wallet: its file and its own password. -/
def Device.view (d : Device) (wallet : WalletId) : Option (List UInt8) × Option String :=
  (d.disk (walletPath X ks wallet), d.aliases wallet)

/-- What the content of a wallet's file gives under a password. -/
def openView (wallet : WalletId) (file : Option (List UInt8)) (password : String) :
    Except KeystoreError SecretPayload :=
  match file with
  | some bytes => openFile X bytes (keystoreIdForWallet X wallet) (decodePassword password)
  | none => .error .notFound

/-- The file is there and its header is read: what `exists` asks for. -/
def Present (wallet : WalletId) (file : Option (List UInt8)) : Prop :=
  ∃ bytes found, file = some bytes ∧ bytes.length ≤ wholeFileCap ∧
    parsedMeta X bytes (keystoreIdForWallet X wallet) = .ok found

/-- The file was opened with the wallet's own password and its secret sealed with the shared
one. -/
def Rekeyed (wallet : WalletId) (password shared : String) (file file' : Option (List UInt8)) :
    Prop :=
  password ≠ shared ∧ ∃ payload bytes, openView X wallet file password = .ok payload ∧
    encryptSecret X (draws wallet) ks.defaultKdf payload (decodePassword shared)
      (keystoreIdForWallet X wallet) = .ok bytes ∧ file' = some bytes

/-- How far a wallet can have come: nothing happened, the file was re-encrypted, or its own
password was deleted, and that because the file opens with the shared one or the two are the
same. -/
inductive Progress (wallet : WalletId) (password shared : String) :
    Option (List UInt8) × Option String → Option (List UInt8) × Option String → Prop
  | untouched (file : Option (List UInt8)) :
    Progress wallet password shared (file, some password) (file, some password)
  | rekeyed {file file' : Option (List UInt8)} :
    Present X wallet file → Rekeyed X ks draws wallet password shared file file' →
    Progress wallet password shared (file, some password) (file', some password)
  | done {file : Option (List UInt8)} {payload : SecretPayload} :
    Present X wallet file → openView X wallet file shared = .ok payload →
    Progress wallet password shared (file, some password) (file, none)
  | same {file : Option (List UInt8)} :
    Present X wallet file → password = shared →
    Progress wallet password shared (file, some password) (file, none)
  | rekeyedDone {file file' : Option (List UInt8)} :
    Present X wallet file → Rekeyed X ks draws wallet password shared file file' →
    Progress wallet password shared (file, some password) (file', none)

/-- Between two devices, only what belongs to one wallet differs. -/
structure Frame (wallet : WalletId) (d d' : Device) : Prop where
  aliases : ∀ wallet', wallet' ≠ wallet → d'.aliases wallet' = d.aliases wallet'
  disk : ∀ path, path ≠ walletPath X ks wallet →
    path ≠ ks.tempPath (keystoreIdForWallet X wallet) (draws wallet).tempId →
    d'.disk path = d.disk path
  wallets : d'.wallets = d.wallets
  shared : d'.shared = d.shared
  created : d'.created = d.created

end Progress

section Specs

variable {X : Externals} {ks : FileKeystore} {draws : WalletId → Draws} {d : Device}

lemma Frame.refl (wallet : WalletId) (d : Device) : Frame X ks draws wallet d d :=
  ⟨fun _ _ => rfl, fun _ _ _ => rfl, rfl, rfl, rfl⟩

lemma onDisk_all {α : Type} {x : Io α} {Q : Except KeystoreError α → Device → Prop}
    {E : String → Device → Prop} {S : Device → Prop}
    (h : x.All d.disk (fun a disk' => Q (.ok a) (d.setDisk disk'))
      (fun e disk' => Q (.error e) (d.setDisk disk')) fun disk' => S (d.setDisk disk')) :
    (onDisk x).All d Q E S := by
  apply Proc.All.attempt
  apply Proc.All.zoom
  exact h

/-- `get_meta` finds only a file it can read. -/
lemma getMetaUnlocked_found (wallet : WalletId) {disk : Disk} :
    (getMetaUnlocked X ks (keystoreIdForWallet X wallet).value).All disk
      (fun found disk' => disk' = disk ∧
        (found.isSome → Present X wallet (disk (walletPath X ks wallet))))
      (fun _ disk' => disk' = disk) fun disk' => disk' = disk := by
  rw [getMetaUnlocked, KeystoreId.parse_value]
  refine Proc.All.bind (Proc.All.ofExcept ?_ fun _ _ => rfl)
  rintro _ ⟨⟩
  refine Proc.All.bind (Proc.All.read ?_)
  split
  · exact Proc.All.pure ⟨rfl, fun h => by cases h⟩
  · refine Proc.All.bind ((readCapped_all _ _).mono ?_ (fun _ _ h => h.1) fun _ h => h)
    rintro bytes _ ⟨rfl, hbytes, hcap⟩
    refine Proc.All.bind (Proc.All.ofExcept (fun found hfound => ?_) fun _ _ => rfl)
    exact Proc.All.pure ⟨rfl, fun _ => ⟨bytes, found, hbytes, hcap, hfound⟩⟩

/-- `exists` changes nothing and is true only of a file that can be read. -/
lemma keystoreExists_all (wallet : WalletId) {E : String → Device → Prop} :
    (keystoreExists X ks (keystoreIdForWallet X wallet)).All d
      (fun present d' => d' = d ∧ (present = true → Present X wallet (d.view X ks wallet).1))
      E (· = d) := by
  apply Proc.All.bind
  apply onDisk_all
  apply (getMetaUnlocked_found wallet).mono
  · rintro found _ ⟨rfl, hfound⟩
    cases found with
    | none => exact Proc.All.pure ⟨rfl, fun h => by cases h⟩
    | some found => exact Proc.All.pure ⟨rfl, fun _ => hfound rfl⟩
  · rintro e _ rfl
    exact Proc.All.pure ⟨rfl, fun h => by cases h⟩
  · rintro _ rfl
    rfl

/-- `opens_with` changes nothing and is true only of a file that opens. -/
lemma opensWith_all (wallet : WalletId) (password : String) {E : String → Device → Prop} :
    (opensWith X ks (keystoreIdForWallet X wallet) (decodePassword password)).All d
      (fun opens d' => d' = d ∧ (opens = true →
        ∃ payload, openView X wallet (d.view X ks wallet).1 password = .ok payload))
      E (· = d) := by
  apply Proc.All.bind
  apply onDisk_all
  apply (verifyUnlocked_all _ _).mono
  · rintro found _ ⟨rfl, hopen⟩
    exact Proc.All.pure ⟨rfl, fun _ => hopen⟩
  · rintro e _ ⟨rfl, -⟩
    exact Proc.All.pure ⟨rfl, fun h => by cases h⟩
  · rintro _ rfl
    rfl

/-- A device whose disk differs from another's by a staged write of a wallet's file. -/
theorem Frame.of_wrote {wallet : WalletId} {bytes : List UInt8} {disk' : Disk}
    (h : Wrote (walletPath X ks wallet)
      (ks.tempPath (keystoreIdForWallet X wallet) (draws wallet).tempId) bytes d.disk disk') :
    Frame X ks draws wallet d (d.setDisk disk') :=
  ⟨fun _ _ => rfl, h.frame, rfl, rfl, rfl⟩

/-- Re-encrypting the file of a wallet: it is left alone or re-encrypted, and on success it is
re-encrypted. -/
theorem rekeyWallet_all {wallet : WalletId} {password shared : String} (hne : password ≠ shared) :
    (rekeyWallet X ks draws wallet password shared).All d
      (fun _ d' => Frame X ks draws wallet d d' ∧ d'.aliases = d.aliases ∧
        Rekeyed X ks draws wallet password shared (d.view X ks wallet).1 (d'.view X ks wallet).1)
      (fun _ d' => Frame X ks draws wallet d d' ∧ d'.aliases = d.aliases ∧
        (d'.view X ks wallet = d.view X ks wallet ∨ Rekeyed X ks draws wallet password shared
          (d.view X ks wallet).1 (d'.view X ks wallet).1))
      (fun d' => Frame X ks draws wallet d d' ∧ d'.aliases = d.aliases ∧
        (d'.view X ks wallet = d.view X ks wallet ∨ Rekeyed X ks draws wallet password shared
          (d.view X ks wallet).1 (d'.view X ks wallet).1)) := by
  have hbroken {disk' : Disk} (h : disk' = d.disk ∨ ∃ id payload bytes,
      KeystoreId.parse (keystoreIdForWallet X wallet).value = .ok id ∧
      d.disk.openId X ks id (decodePassword password) = .ok payload ∧
      encryptSecret X (draws wallet) ks.defaultKdf payload (decodePassword shared) id =
        .ok bytes ∧
      Wrote (ks.pathForId id) (ks.tempPath id (draws wallet).tempId) bytes d.disk disk') :
      Frame X ks draws wallet d (d.setDisk disk') ∧ (d.setDisk disk').aliases = d.aliases ∧
        ((d.setDisk disk').view X ks wallet = d.view X ks wallet ∨
          Rekeyed X ks draws wallet password shared (d.view X ks wallet).1
            ((d.setDisk disk').view X ks wallet).1) := by
    rcases h with rfl | ⟨id, payload, bytes, hid, hopen, hbytes, hw⟩
    · exact ⟨.refl _ _, rfl, .inl rfl⟩
    · obtain rfl : keystoreIdForWallet X wallet = id := by simpa using hid
      refine ⟨.of_wrote hw, rfl, ?_⟩
      rcases hw.target with h | h
      · left
        exact Prod.ext h rfl
      · right
        exact ⟨hne, payload, bytes, hopen, hbytes, h⟩
  apply Proc.All.bind
  apply onDisk_all
  apply (changePassword_all _ _ _).mono
  · rintro found disk' ⟨id, payload, bytes, hid, hopen, hbytes, hdisk⟩
    obtain rfl : keystoreIdForWallet X wallet = id := by simpa using hid
    have hrekeyed : Rekeyed X ks draws wallet password shared (d.view X ks wallet).1
        ((d.setDisk disk').view X ks wallet).1 := by
      refine ⟨hne, payload, bytes, hopen, hbytes, ?_⟩
      rw [hdisk]
      exact Function.update_self _ _ _
    have hframe : Frame X ks draws wallet d (d.setDisk disk') := by
      rw [hdisk]
      exact .of_wrote .of_update
    refine Proc.All.bind ((opensWith_all wallet shared).mono ?_ (fun _ _ h => h) ?_)
    · rintro opens _ ⟨rfl, -⟩
      split
      · exact Proc.All.throw ⟨hframe, rfl, .inr hrekeyed⟩
      · exact Proc.All.pure ⟨hframe, rfl, hrekeyed⟩
    · rintro _ rfl
      exact ⟨hframe, rfl, .inr hrekeyed⟩
  · exact fun _ _ h => Proc.All.throw (hbroken h)
  · exact fun _ h => hbroken h

/-- What the migration of one wallet has done, however it ended. -/
def Moved (X : Externals) (ks : FileKeystore) (draws : WalletId → Draws) (wallet : WalletId)
    (password shared : String) (d d' : Device) : Prop :=
  Frame X ks draws wallet d d' ∧
    Progress X ks draws wallet password shared (d.view X ks wallet) (d'.view X ks wallet)

/-- Deleting a wallet's own password is all or nothing. -/
lemma deletePassword_all {M : Device → Prop} {wallet : WalletId} {rekeyed : Bool} (hkeep : M d)
    (hdelete : M { d with aliases := Function.update d.aliases wallet none }) :
    (do
      deleteWalletPassword wallet
      pure rekeyed : ServiceIo Bool).All d (fun _ => M) (fun _ => M) M := by
  apply Proc.All.bind
  refine Proc.All.call (fun _ d' h => ?_) (fun e h => by cases h) (fun _ => hkeep) hkeep
  obtain rfl : { d with aliases := Function.update d.aliases wallet none } = d' := by
    simpa using h
  exact Proc.All.pure hdelete

lemma Frame.delete {wallet : WalletId} {d' : Device} (h : Frame X ks draws wallet d d') :
    Frame X ks draws wallet d { d' with aliases := Function.update d'.aliases wallet none } :=
  ⟨fun wallet' hne => by rw [← h.aliases wallet' hne]; exact Function.update_of_ne hne _ _, h.disk,
    h.wallets, h.shared, h.created⟩

/-- The migration of one wallet makes progress on that wallet and touches no other. -/
theorem migrateWalletPassword_all {wallet : WalletId} {password shared : String}
    (halias : d.aliases wallet = some password) :
    (migrateWalletPassword X ks draws wallet password shared).All d
      (fun _ => Moved X ks draws wallet password shared d)
      (fun _ => Moved X ks draws wallet password shared d)
      (Moved X ks draws wallet password shared d) := by
  have hview : d.view X ks wallet = ((d.view X ks wallet).1, some password) :=
    Prod.ext rfl halias
  have hsame : Moved X ks draws wallet password shared d d := by
    refine ⟨.refl _ _, ?_⟩
    rw [hview]
    exact .untouched _
  -- How the view changes when the password is deleted, from any device reached before.
  have hdeleted (d' : Device) :
      ({ d' with aliases := Function.update d'.aliases wallet none } : Device).view X ks wallet =
        ((d'.view X ks wallet).1, none) :=
    Prod.ext rfl (Function.update_self _ _ _)
  apply Proc.All.bind
  refine (keystoreExists_all wallet).mono ?_ (fun _ _ h => h) ?_
  swap
  · rintro _ rfl
    exact hsame
  rintro present d₁ ⟨hd₁, hpresent⟩
  rw [hd₁]
  split
  · exact Proc.All.pure hsame
  rename_i hp
  replace hpresent := hpresent (by simpa using hp)
  rw [needsRekey]
  split
  · -- The two passwords are the same: nothing is opened.
    rename_i heq
    refine Proc.All.bind (Proc.All.pure ?_)
    refine deletePassword_all hsame ⟨(Frame.refl _ _).delete, ?_⟩
    rw [hdeleted, hview]
    exact .same hpresent heq
  · rename_i hne
    refine Proc.All.bind (Proc.All.bind ((opensWith_all wallet shared).mono ?_ (fun _ _ h => h) ?_))
    swap
    · rintro _ rfl
      exact hsame
    rintro opens d₁ ⟨hd₁, hopens⟩
    rw [hd₁]
    refine Proc.All.pure ?_
    cases opens with
    | true =>
      obtain ⟨payload, hpayload⟩ := hopens rfl
      refine deletePassword_all hsame ⟨(Frame.refl _ _).delete, ?_⟩
      rw [hdeleted, hview]
      exact .done hpresent hpayload
    | false =>
      have hbroken {d' : Device} (h : Frame X ks draws wallet d d' ∧ d'.aliases = d.aliases ∧
          (d'.view X ks wallet = d.view X ks wallet ∨ Rekeyed X ks draws wallet password shared
            (d.view X ks wallet).1 (d'.view X ks wallet).1)) :
          Moved X ks draws wallet password shared d d' := by
        obtain ⟨hframe, haliases, h⟩ := h
        have hview' : d'.view X ks wallet = ((d'.view X ks wallet).1, some password) :=
          Prod.ext rfl ((congrFun haliases wallet).trans halias)
        refine ⟨hframe, ?_⟩
        rcases h with h | h
        · rw [h, hview]
          exact .untouched _
        · rw [hview, hview']
          exact .rekeyed hpresent h
      refine Proc.All.bind ((rekeyWallet_all hne).mono ?_ (fun _ _ => hbroken) fun _ => hbroken)
      rintro _ d' ⟨hframe, haliases, h⟩
      refine deletePassword_all (hbroken ⟨hframe, haliases, .inr h⟩) ⟨hframe.delete, ?_⟩
      rw [hdeleted, hview]
      exact .rekeyedDone hpresent h

/-! ## All wallets -/

/-- The wallets with a password of their own. -/
def Device.legacy (d : Device) : List Wallet → List (WalletId × String)
  | [] => []
  | wallet :: wallets =>
    if wallet.walletType = .view then d.legacy wallets
    else
      match d.aliases wallet.id with
      | some password => (wallet.id, password) :: d.legacy wallets
      | none => d.legacy wallets

/-- Whose own passwords are migrated. -/
lemma mem_legacy_iff {wallets : List Wallet} {wallet : WalletId} {password : String} :
    (wallet, password) ∈ d.legacy wallets ↔ d.aliases wallet = some password ∧
      ∃ w ∈ wallets, w.id = wallet ∧ w.walletType ≠ .view := by
  induction wallets with
  | nil => simp [Device.legacy]
  | cons w wallets ih =>
    rw [Device.legacy]
    split
    · rename_i hview
      simp [ih, hview]
    · rename_i hview
      split
      · rename_i own hown
        simp only [List.mem_cons, Prod.mk.injEq, ih, exists_eq_or_imp]
        constructor
        · rintro (⟨rfl, rfl⟩ | ⟨halias, hw⟩)
          · exact ⟨hown, .inl ⟨rfl, hview⟩⟩
          · exact ⟨halias, .inr hw⟩
        · rintro ⟨halias, ⟨rfl, -⟩ | hw⟩
          · exact .inl ⟨rfl, Option.some.inj (halias.symm.trans hown)⟩
          · exact .inr ⟨halias, hw⟩
      · rename_i hown
        simp only [List.mem_cons, ih, exists_eq_or_imp]
        constructor
        · rintro ⟨halias, hw⟩
          exact ⟨halias, .inr hw⟩
        · rintro ⟨halias, ⟨rfl, -⟩ | hw⟩
          · rw [hown] at halias
            cases halias
          · exact ⟨halias, hw⟩

/-- The wallets with a password of their own are wallets, in the same order. -/
theorem legacy_sublist (wallets : List Wallet) :
    ((d.legacy wallets).map Prod.fst).Sublist (wallets.map Wallet.id) := by
  induction wallets with
  | nil => exact .slnil
  | cons w wallets ih =>
    rw [Device.legacy, List.map_cons]
    split
    · exact ih.cons _
    · split
      · rw [List.map_cons]
        exact ih.cons_cons _
      · exact ih.cons _

/-- Collecting the passwords changes nothing and finds them all. -/
lemma collectLegacy_all (wallets : List Wallet) :
    (collectLegacy wallets).All d (fun legacy d' => d' = d ∧ legacy = d.legacy wallets)
      (fun _ d' => d' = d) fun d' => d' = d := by
  induction wallets with
  | nil => exact Proc.All.pure ⟨rfl, rfl⟩
  | cons w wallets ih =>
    rw [collectLegacy, Device.legacy]
    split
    · exact ih
    · refine Proc.All.bind (Proc.All.call (fun password d' h => ?_) (fun e h => by cases h)
        (fun _ => rfl) rfl)
      obtain ⟨rfl, rfl⟩ : d.aliases w.id = password ∧ d = d' := by simpa using h
      split
      · refine Proc.All.bind (ih.mono ?_ (fun _ _ h => h) fun _ h => h)
        rintro legacy d' ⟨hd', hlegacy⟩
        exact Proc.All.pure ⟨hd', by rw [hlegacy]⟩
      · exact ih

/-- The password the wallets are migrated to. -/
def Device.sharedPassword (d : Device) : String := d.shared.getD d.created

lemma getPassword_all :
    getPassword.All d
      (fun shared d' => shared = d.sharedPassword ∧ d' = { d with shared := some shared })
      (fun _ d' => d' = d) fun d' => d' = d := by
  refine Proc.All.call (fun password d' h => ?_) (fun e h => by cases h) (fun _ => rfl) rfl
  rw [Device.sharedPassword]
  simp only [Except.ok.injEq] at h
  split at h
  · rename_i hshared
    obtain ⟨rfl, rfl⟩ : _ = password ∧ d = d' := by simpa using h
    rw [hshared]
    exact ⟨rfl, by rw [← hshared]⟩
  · rename_i hshared
    obtain ⟨rfl, rfl⟩ : d.created = password ∧ { d with shared := some d.created } = d' := by
      simpa using h
    rw [hshared]
    exact ⟨rfl, rfl⟩

/-- Different wallets have different keystore ids. -/
def DistinctIds (X : Externals) (wallets : List WalletId) : Prop :=
  ∀ w ∈ wallets, ∀ w' ∈ wallets, keystoreIdForWallet X w = keystoreIdForWallet X w' → w = w'

/-- Work on one wallet does not show in the view of another. -/
lemma Frame.view_eq {wallets : List WalletId} (hids : DistinctIds X wallets) {d' : Device}
    {wallet wallet' : WalletId} (h : Frame X ks draws wallet d d') (hw : wallet ∈ wallets)
    (hw' : wallet' ∈ wallets) (hne : wallet' ≠ wallet) :
    d'.view X ks wallet' = d.view X ks wallet' := by
  refine Prod.ext (h.disk _ (fun hpath => hne ?_) (tempPath_ne_pathForId _ _ _ _))
    (h.aliases wallet' hne)
  exact hids _ hw' _ hw (pathForId_injective ks hpath)

/-- What a run over some wallets has done, however it ended: each of them made progress, the
others are as they were. -/
structure Advanced (X : Externals) (ks : FileKeystore) (draws : WalletId → Draws)
    (wallets : List WalletId) (shared : String) (legacy : List (WalletId × String))
    (d d' : Device) : Prop where
  progress : ∀ wallet password, (wallet, password) ∈ legacy →
    Progress X ks draws wallet password shared (d.view X ks wallet) (d'.view X ks wallet)
  others : ∀ wallet ∈ wallets, wallet ∉ legacy.map Prod.fst →
    d'.view X ks wallet = d.view X ks wallet
  wallets : d'.wallets = d.wallets
  shared : d'.shared = d.shared
  created : d'.created = d.created

/-- Before a run has done anything. -/
lemma Advanced.refl {wallets : List WalletId} {shared : String}
    {legacy : List (WalletId × String)}
    (halias : ∀ wallet password, (wallet, password) ∈ legacy → d.aliases wallet = some password) :
    Advanced X ks draws wallets shared legacy d d := by
  refine ⟨fun wallet password h => ?_, fun _ _ _ => rfl, rfl, rfl, rfl⟩
  have hview : d.view X ks wallet = ((d.view X ks wallet).1, some password) :=
    Prod.ext rfl (halias wallet password h)
  rw [hview]
  exact .untouched _

/-- One more wallet in front. -/
lemma Advanced.cons {wallets : List WalletId} (hids : DistinctIds X wallets) {shared : String}
    {wallet : WalletId} {password : String} {legacy : List (WalletId × String)} {d₁ d' : Device}
    (hsub : ∀ w ∈ wallet :: legacy.map Prod.fst, w ∈ wallets)
    (hnodup : (wallet :: legacy.map Prod.fst).Nodup)
    (hmoved : Moved X ks draws wallet password shared d d₁)
    (h : Advanced X ks draws wallets shared legacy d₁ d') :
    Advanced X ks draws wallets shared ((wallet, password) :: legacy) d d' := by
  have hw : wallet ∈ wallets := hsub wallet List.mem_cons_self
  obtain ⟨hnot, -⟩ := List.nodup_cons.mp hnodup
  refine ⟨fun wallet' password' hmem => ?_, fun wallet' hw' hnot' => ?_,
    h.wallets.trans hmoved.1.wallets, h.shared.trans hmoved.1.shared,
    h.created.trans hmoved.1.created⟩
  · rcases List.mem_cons.mp hmem with heq | hmem
    · obtain ⟨rfl, rfl⟩ := Prod.mk.inj heq
      rw [h.others wallet' hw hnot]
      exact hmoved.2
    · have hin : wallet' ∈ legacy.map Prod.fst := List.mem_map_of_mem hmem
      have hne : wallet' ≠ wallet := fun heq => hnot (heq ▸ hin)
      rw [← hmoved.1.view_eq hids hw (hsub _ (List.mem_cons_of_mem _ hin)) hne]
      exact h.progress wallet' password' hmem
  · rw [List.map_cons, List.mem_cons, not_or] at hnot'
    rw [h.others wallet' hw' hnot'.2, hmoved.1.view_eq hids hw hw' hnot'.1]

/-- The loop makes progress on the wallets it has reached and touches no others; no error ends
it. -/
theorem migrateLoop_all {wallets : List WalletId} (hids : DistinctIds X wallets)
    (shared : String) (legacy : List (WalletId × String))
    (hsub : ∀ w ∈ legacy.map Prod.fst, w ∈ wallets) (hnodup : (legacy.map Prod.fst).Nodup)
    (halias : ∀ wallet password, (wallet, password) ∈ legacy → d.aliases wallet = some password) :
    (migrateLoop X ks draws shared legacy).All d
      (fun _ => Advanced X ks draws wallets shared legacy d) (fun _ _ => False)
      (Advanced X ks draws wallets shared legacy d) := by
  induction legacy generalizing d with
  | nil => exact Proc.All.pure (.refl halias)
  | cons entry legacy ih =>
    obtain ⟨wallet, password⟩ := entry
    obtain ⟨hnot, hnodup'⟩ := List.nodup_cons.mp hnodup
    have hrest (d₁ : Device) (hmoved : Moved X ks draws wallet password shared d d₁) (w : WalletId)
        (p : String) (hmem : (w, p) ∈ legacy) : d₁.aliases w = some p := by
      have hin : w ∈ legacy.map Prod.fst := List.mem_map.mpr ⟨(w, p), hmem, rfl⟩
      have hne : w ≠ wallet := fun heq => hnot (heq ▸ hin)
      rw [hmoved.1.aliases w hne]
      exact halias w p (List.mem_cons_of_mem _ hmem)
    have hcons {d₁ d' : Device} (hmoved : Moved X ks draws wallet password shared d d₁)
        (h : Advanced X ks draws wallets shared legacy d₁ d') :
        Advanced X ks draws wallets shared ((wallet, password) :: legacy) d d' :=
      h.cons hids hsub hnodup hmoved
    have hloop (d₁ : Device) (hmoved : Moved X ks draws wallet password shared d d₁) :=
      ih (fun w hw => hsub w (List.mem_cons_of_mem _ hw)) hnodup' (hrest d₁ hmoved)
    rw [migrateLoop]
    apply Proc.All.bind
    apply Proc.All.attempt
    apply (migrateWalletPassword_all (halias _ _ List.mem_cons_self)).mono
    · intro rekeyed d₁ hmoved
      apply Proc.All.bind
      exact (hloop d₁ hmoved).mono (fun _ _ h => Proc.All.pure (hcons hmoved h))
        (fun _ _ h => h) fun _ h => hcons hmoved h
    · intro error d₁ hmoved
      apply Proc.All.bind
      exact (hloop d₁ hmoved).mono (fun _ _ h => Proc.All.pure (hcons hmoved h))
        (fun _ _ h => h) fun _ h => hcons hmoved h
    · intro d₁ hmoved
      exact hcons hmoved (.refl (hrest d₁ hmoved))

/-- What a migration has done, however it ended. -/
structure Migrated (X : Externals) (ks : FileKeystore) (draws : WalletId → Draws)
    (d d' : Device) : Prop where
  progress : ∀ wallet password, (wallet, password) ∈ d.legacy d.wallets →
    Progress X ks draws wallet password d.sharedPassword (d.view X ks wallet)
      (d'.view X ks wallet)
  others : ∀ wallet ∈ d.wallets.map Wallet.id, wallet ∉ (d.legacy d.wallets).map Prod.fst →
    d'.view X ks wallet = d.view X ks wallet
  wallets : d'.wallets = d.wallets
  sharedPassword : d'.sharedPassword = d.sharedPassword
  stored : d' = d ∨ d'.shared = some d.sharedPassword

lemma Migrated.of_unchanged (d : Device) : Migrated X ks draws d d := by
  have h : Advanced X ks draws (d.wallets.map Wallet.id) d.sharedPassword (d.legacy d.wallets) d d :=
    .refl fun wallet password hmem => (mem_legacy_iff.mp hmem).1
  exact ⟨h.progress, h.others, rfl, rfl, .inl rfl⟩

/-- `migrate_to_shared_password` makes progress on each wallet with a password of its own, and
touches no other. -/
theorem migrateToSharedPassword_all (hids : DistinctIds X (d.wallets.map Wallet.id))
    (hnodup : (d.wallets.map Wallet.id).Nodup) :
    (migrateToSharedPassword X ks draws).All d (fun _ => Migrated X ks draws d)
      (fun _ => Migrated X ks draws d) (Migrated X ks draws d) := by
  have hsame : Migrated X ks draws d d := .of_unchanged d
  apply Proc.All.bind
  refine Proc.All.call (fun wallets d₁ h => ?_) (fun e h => by cases h) (fun _ => hsame) hsame
  obtain ⟨rfl, rfl⟩ : d.wallets = wallets ∧ d = d₁ := by simpa using h
  apply Proc.All.bind
  refine (collectLegacy_all d.wallets).mono ?_ (fun _ _ h => h ▸ hsame) fun _ h => h ▸ hsame
  rintro legacy d₁ ⟨hd₁, rfl⟩
  rw [hd₁]
  split
  · exact Proc.All.pure hsame
  apply Proc.All.bind
  refine getPassword_all.mono ?_ (fun _ _ h => h ▸ hsame) fun _ h => h ▸ hsame
  rintro shared d₂ ⟨hshared, hd₂⟩
  -- Storing the shared password shows in no view.
  have hview (wallet : WalletId) : d₂.view X ks wallet = d.view X ks wallet := by
    rw [hd₂]
    rfl
  have hadvanced {d' : Device} (h : Advanced X ks draws (d.wallets.map Wallet.id) shared
      (d.legacy d.wallets) d₂ d') : Migrated X ks draws d d' := by
    have hstored : d'.shared = some d.sharedPassword := by rw [h.shared, hd₂, hshared]
    refine ⟨fun wallet password hmem => ?_, fun wallet hw hnot => ?_, ?_, ?_, .inr hstored⟩
    · rw [← hview wallet, ← hshared]
      exact h.progress wallet password hmem
    · rw [h.others wallet hw hnot, hview]
    · rw [h.wallets, hd₂]
    · rw [Device.sharedPassword, hstored, Option.getD_some]
  have halias (wallet : WalletId) (password : String)
      (hmem : (wallet, password) ∈ d.legacy d.wallets) : d₂.aliases wallet = some password := by
    rw [hd₂]
    exact (mem_legacy_iff.mp hmem).1
  have hsub := legacy_sublist (d := d) d.wallets
  apply Proc.All.bind
  refine (migrateLoop_all hids shared _ (fun w hw => hsub.subset hw) (hsub.nodup hnodup)
    halias).mono ?_ (fun _ _ h => h.elim) fun _ h => hadvanced h
  rintro ⟨migrated, failures⟩ d' h
  simp only
  split
  · exact Proc.All.pure (hadvanced h)
  · exact Proc.All.throw (hadvanced h)

end Specs

end GemCore.Keystore
