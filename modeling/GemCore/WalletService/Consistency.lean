import GemCore.Keystore.Import
import GemCore.Lib.Interleave
import GemCore.WalletService.Registry

/-!
# Table, secrets and session agree

What must hold of the wallets of a device at any time: a wallet that is listed has its secret,
the current wallet is a listed one, and no wallet is listed twice. Importing keeps this wherever
it breaks off. Deleting takes the secret first, then the row, and looks at the session last, so
that it depends on where it breaks off.

## Main definitions

* `Consistent` — what must hold.
* `Settles` — a deletion that is not broken off between the secret and the row, nor, where the
  wallet is the current one, between the row and the session.

## Main results

* `importWallet_keeps` — importing keeps consistency under every schedule.
* `deleteWallet_keeps` — so does deleting, if it settles.
* `consistent_of_settled` — every state of a run of such operations is consistent, and a wallet
  whose secret a failed deletion has removed is not listed any more.
-/

namespace GemCore.WalletService

open Lib
open Keystore (Disk Io Draws Externals FileKeystore KeystoreError KeystoreId keystoreIdForWallet)

/-- The file of a wallet's secret is there and opens under some password. -/
def HasSecret (X : Externals) (ks : FileKeystore) (disk : Disk) (id : WalletId) : Prop :=
  ∃ password payload, disk.openId X ks (keystoreIdForWallet X id) password = .ok payload

/-- Every listed wallet that is not a view wallet has its secret, the current wallet is listed,
and no two wallets have one id. -/
structure Consistent (X : Externals) (ks : FileKeystore) (r : Registry) : Prop where
  secrets : ∀ wallet ∈ r.wallets, wallet.walletType ≠ .view → HasSecret X ks r.disk wallet.id
  current : ∀ id, r.current = some id → ∃ wallet ∈ r.wallets, wallet.id = id
  nodup : (r.wallets.map (·.id)).Nodup

/-- What the service relies on in lower-casing: a word stays one, and a second time changes
nothing. -/
structure WalletLib.Lawful (W : WalletLib) : Prop where
  split_lower : ∀ text word, word ∈ splitWhitespace text →
    splitWhitespace (W.toLowercase word) = [W.toLowercase word]
  lower_lower : ∀ word, W.toLowercase (W.toLowercase word) = W.toLowercase word

/-- A character of the name of a v4 keystore file. -/
def isFileNameChar (c : Char) : Bool := Keystore.isLowerHex c || c ∈ "-.json".toList

/-- Lower-casing leaves the name of a keystore file as it is, and keeps a separator. -/
structure LowersAscii (X : Externals) : Prop where
  keeps : ∀ text : String, text.toList.all isFileNameChar = true → X.toLowercase text = text
  separator : ∀ text : String, '_' ∈ text.toList → '_' ∈ (X.toLowercase text).toList

/-! ## The keystore -/

section Keystore

variable {X : Externals} {ks : FileKeystore} {disk disk' : Disk}

/-- The characters of a keystore id. -/
lemma isFileNameChar_of_mem_value (id : KeystoreId) {c : Char} (hc : c ∈ id.value.toList) :
    isFileNameChar c = true := by
  have hvalid := id.valid
  simp only [Keystore.isKeystoreId, Bool.and_eq_true] at hvalid
  obtain ⟨⟨-, hall⟩, -⟩ := hvalid
  obtain ⟨i, hi, rfl⟩ := List.mem_iff_getElem.mp hc
  have hmem : (id.value.toList[i], i) ∈ id.value.toList.zipIdx := by
    rw [List.mk_mem_zipIdx_iff_getElem?]
    exact List.getElem?_eq_getElem hi
  have hat := List.all_eq_true.mp hall _ hmem
  dsimp only at hat
  split at hat
  · rw [beq_iff_eq.mp hat]
    decide
  · simp [isFileNameChar, hat]

/-- `delete_v3` under the id of a wallet leaves the v4 file of every wallet alone. -/
theorem deletedV3_keeps (hX : X.Lawful) (hlower : LowersAscii X) {wallet : WalletId}
    {id : KeystoreId} {password : List UInt8} {payload : Keystore.SecretPayload}
    (h : Keystore.DeletedV3 X ks (X.toLowercase wallet.id) disk disk')
    (hopen : disk.openId X ks id password = .ok payload) :
    disk' (ks.pathForId id) = disk (ks.pathForId id) := by
  obtain hsame | ⟨-, name, hname, hmatches⟩ := h (ks.pathForId id)
  · exact hsame
  · exfalso
    obtain rfl : name = id.value ++ ".json" := by
      have hlist := congrArg String.toList hname
      simp only [FileKeystore.pathForId, FileKeystore.join, String.toList_append,
        List.append_assoc, List.append_cancel_left_eq] at hlist
      rw [← String.toList_inj, String.toList_append]
      exact hlist.symm
    have hchars : (id.value ++ ".json").toList.all isFileNameChar = true := by
      rw [String.toList_append, List.all_append, Bool.and_eq_true]
      exact ⟨List.all_eq_true.mpr fun c hc => isFileNameChar_of_mem_value id hc, by decide⟩
    have hnot : '_' ∉ (id.value ++ ".json").toList := fun hmem =>
      absurd (List.all_eq_true.mp hchars '_' hmem) (by decide)
    have hsep : '_' ∈ (X.toLowercase wallet.id).toList :=
      hlower.separator _ wallet.separator_mem_id
    rw [Keystore.MatchesV3, hlower.keeps _ hchars] at hmatches
    obtain heq | hsuffix | ⟨bytes, keystore, v3Id, hbytes, hparse, -, -⟩ := hmatches
    · exact hnot (heq ▸ hsep)
    · exact hnot (hsuffix.subset hsep)
    · -- a file that opens as v4 says so in its version
      have hfile : disk (ks.pathForId id) = some bytes := hbytes
      rw [Disk.openId, hfile] at hopen
      obtain ⟨-, parsed, hparsed, -⟩ := Keystore.openFile_eq_ok_iff.mp hopen
      obtain ⟨file, hv4, hversion4⟩ := Keystore.version_of_parseV4 hparsed
      obtain ⟨hv3, hversion3⟩ := Keystore.version_of_parseV3 hparse
      have hversion := hX.json_version hv4 hv3
      rw [hversion4, hversion3, Keystore.versionV4] at hversion
      omega

/-- Every file of an id other than one is as it was. -/
def KeepsOthers (ks : FileKeystore) (id : KeystoreId) (disk disk' : Disk) : Prop :=
  ∀ id', id' ≠ id → disk' (ks.pathForId id') = disk (ks.pathForId id')

lemma keepsOthers_update (ks : FileKeystore) (id : KeystoreId) (disk : Disk)
    (file : Option (List UInt8)) :
    KeepsOthers ks id disk (Function.update disk (ks.pathForId id) file) := by
  intro id' hne
  exact Function.update_of_ne (fun h => hne (Keystore.pathForId_injective ks h)) _ _

/-- What an import that broke off has done to the other files. -/
lemma keepsOthers_of_broken {draws : Draws} {id : KeystoreId}
    (h : Keystore.Broken ks draws id disk disk') : KeepsOthers ks id disk disk' := by
  intro id' hne
  obtain rfl | ⟨-, bytes, hwrote⟩ := h
  · rfl
  · exact hwrote.frame _ (fun h => hne (Keystore.pathForId_injective ks h))
      (Keystore.tempPath_ne_pathForId ks id draws.tempId id')

/-- An import of a payload under an id leaves the other files alone, and one that returns leaves
a file that opens. -/
theorem importPayload_opens (hX : X.Lawful) (draws : Draws) (payload : Keystore.SecretPayload)
    (password : List UInt8) (id : KeystoreId) :
    (Keystore.importPayloadUnlocked X ks draws payload password (some id.value)).All disk
      (fun _ disk' => KeepsOthers ks id disk disk' ∧
        ∃ held, disk'.openId X ks id password = .ok held)
      (fun _ => KeepsOthers ks id disk) (KeepsOthers ks id disk) := by
  have hid : ∀ id', Keystore.importId draws (some id.value) = .ok id' → id' = id := by
    intro id' h
    rw [Keystore.importId, KeystoreId.parse_value] at h
    cases h
    rfl
  have hbroken : ∀ disk', (disk' = disk ∨ ∃ id', Keystore.importId draws (some id.value) = .ok id' ∧
      Keystore.Broken ks draws id' disk disk') → KeepsOthers ks id disk disk' := by
    rintro disk' (rfl | ⟨id', hid', h⟩)
    · exact fun _ _ => rfl
    · rw [hid id' hid'] at h
      exact keepsOthers_of_broken h
  refine (Keystore.importPayloadUnlocked_all payload password _).mono ?_
    (fun _ disk' => hbroken disk') hbroken
  rintro _ disk' ⟨id', hid', h⟩
  rw [hid id' hid'] at h
  refine ⟨?_, ?_⟩
  · obtain ⟨rfl, -⟩ | ⟨-, bytes, -, rfl⟩ := h
    · exact fun _ _ => rfl
    · exact keepsOthers_update ks id disk _
  · obtain ⟨rfl, hopen⟩ | ⟨-, hopen⟩ := h.openId hX
    · exact hopen
    · exact ⟨payload, hopen⟩

/-- Storing the secret of a wallet leaves the other files alone, and one that returns leaves the
wallet with its secret. -/
theorem createStore_all (hX : X.Lawful) (draws : Draws) (stored : StoredWallet)
    (password : List UInt8) :
    (createStore X ks draws stored password).All disk
      (fun _ disk' => KeepsOthers ks (keystoreIdForWallet X stored.walletId) disk disk' ∧
        HasSecret X ks disk' stored.walletId)
      (fun _ => KeepsOthers ks (keystoreIdForWallet X stored.walletId) disk)
      (KeepsOthers ks (keystoreIdForWallet X stored.walletId) disk) := by
  have himport : ∀ payload, (do
      let _ ← Keystore.importPayloadUnlocked X ks draws payload password
        (some (keystoreIdForWallet X stored.walletId).value)
      pure () : Io Unit).All disk
      (fun _ disk' => KeepsOthers ks (keystoreIdForWallet X stored.walletId) disk disk' ∧
        HasSecret X ks disk' stored.walletId)
      (fun _ => KeepsOthers ks (keystoreIdForWallet X stored.walletId) disk)
      (KeepsOthers ks (keystoreIdForWallet X stored.walletId) disk) := by
    intro payload
    refine Proc.All.bind ((importPayload_opens hX draws payload password _).mono ?_
      (fun _ _ h => h) fun _ h => h)
    rintro _ disk' ⟨hothers, held, hopen⟩
    exact Proc.All.pure ⟨hothers, password, held, hopen⟩
  rw [createStore]
  split
  · rw [Keystore.importMnemonic, Proc.bind_assoc]
    exact Proc.All.bind (Proc.All.ofExcept (fun payload _ => himport payload)
      fun _ _ _ _ => rfl)
  · rw [Keystore.importPrivateKey, Proc.bind_assoc]
    exact Proc.All.bind (Proc.All.ofExcept (fun payload _ => himport payload)
      fun _ _ _ _ => rfl)

/-- Listing the directory changes nothing. -/
lemma hasStoredWallets_readOnly (ks : FileKeystore) (entries : List String) :
    (hasStoredWallets ks entries).ReadOnly := by
  have hdir : Keystore.readDir.ReadOnly := fun disk =>
    Keystore.fsCall_all (fun _ disk' h => by simpa [eq_comm] using h) (fun _ => rfl) rfl
  have hloop : ∀ names count, (listLoop ks names count).ReadOnly := by
    intro names
    induction names with
    | nil => exact fun count => .pure count
    | cons name names ih =>
      intro count
      rw [listLoop]
      refine hdir.bind fun _ => ?_
      split
      · refine Proc.ReadOnly.bind ?_ fun _ => ih _
        exact fun disk => Proc.All.attempt ((Keystore.readCapped_all _ _).mono
          (fun _ _ h => h.1) (fun _ _ h => h.1) fun _ h => h)
      · exact ih count
  exact hdir.bind fun _ => (hloop entries 0).bind fun _ => .pure _

/-- Reading and flushing the directory go through and change nothing. -/
lemma readDir_calm (disk : Disk) : Keystore.readDir.Calm disk (.ok ()) disk := rfl

lemma syncDirectory_calm (disk : Disk) : Keystore.syncDirectory.Calm disk (.ok ()) disk := rfl

/-- An undisturbed `delete` leaves no file of the id. -/
lemma delete_calm (id : KeystoreId) : ∃ deleted, (Keystore.delete ks id.value).Calm disk
    (.ok deleted) (Function.update disk (ks.pathForId id) none) := by
  cases hfile : disk (ks.pathForId id) with
  | none =>
    refine ⟨false, Proc.Calm.bind (Proc.Calm.ofExcept (KeystoreId.parse_value id)) ?_⟩
    have hsame : Function.update disk (ks.pathForId id) none = disk := by
      rw [← hfile, Function.update_eq_self]
    rw [hsame]
    exact Proc.Calm.bind (Proc.Calm.attempt_error (Proc.Calm.call_error (by rw [hfile])))
      (Proc.Calm.pure false)
  | some bytes =>
    refine ⟨true, Proc.Calm.bind (Proc.Calm.ofExcept (KeystoreId.parse_value id)) ?_⟩
    exact Proc.Calm.bind (Proc.Calm.attempt (Proc.Calm.call (by rw [hfile])))
      (Proc.Calm.bind (syncDirectory_calm _) (Proc.Calm.pure true))

/-- An undisturbed look at a file does not fail. -/
lemma isV3File_calm (name legacyId : String) : ∃ isV3,
    (Keystore.isV3File X ks name legacyId).Calm disk (.ok isV3) disk := by
  rw [Keystore.isV3File]
  split
  · exact ⟨true, Proc.Calm.pure true⟩
  · have hread : ∃ found : Except KeystoreError (List UInt8),
        ((Keystore.readCapped (ks.join name) Keystore.wholeFileCap).attempt :
          Io (Except KeystoreError (List UInt8))).Calm disk (.ok found) disk := by
      cases hfile : disk (ks.join name) with
      | none => exact ⟨_, Proc.Calm.attempt_error (Proc.Calm.call_error (by rw [hfile]))⟩
      | some bytes =>
        by_cases hlength : bytes.length > Keystore.wholeFileCap
        · exact ⟨_, Proc.Calm.attempt_error (Proc.Calm.call_error
            (by simp only [hfile, if_pos hlength]; rfl))⟩
        · exact ⟨_, Proc.Calm.attempt (Proc.Calm.call
            (by simp only [hfile, if_neg hlength]; rfl))⟩
    obtain ⟨found, hfound⟩ := hread
    cases found with
    | ok bytes | error e => exact ⟨_, Proc.Calm.bind (Proc.Calm.bind hfound (Proc.Calm.pure _))
        (Proc.Calm.pure _)⟩

/-- An undisturbed `delete_v3` does not fail. -/
lemma deleteV3_calm {legacyId : String} (hid : legacyId ≠ "") (entries : List String) :
    ∃ deleted disk', (Keystore.deleteV3 X ks legacyId entries).Calm disk (.ok deleted) disk' := by
  have hloop : ∀ names legacyId deleted (disk : Disk), ∃ deleted' disk',
      (Keystore.deleteV3Loop X ks legacyId names deleted).Calm disk (.ok deleted') disk' := by
    intro names legacyId
    induction names with
    | nil => exact fun deleted disk => ⟨deleted, disk, Proc.Calm.pure deleted⟩
    | cons name names ih =>
      intro deleted disk
      obtain ⟨isV3, hisV3⟩ := @isV3File_calm X ks disk name legacyId
      cases hfile : disk (ks.join name) with
      | none =>
        obtain ⟨deleted', disk', hrest⟩ := ih deleted disk
        refine ⟨deleted', disk', Proc.Calm.bind (readDir_calm _)
          (Proc.Calm.bind (Proc.Calm.read _) ?_)⟩
        simpa [hfile] using hrest
      | some bytes =>
        cases isV3 with
        | false =>
          obtain ⟨deleted', disk', hrest⟩ := ih deleted disk
          refine ⟨deleted', disk', Proc.Calm.bind (readDir_calm _)
            (Proc.Calm.bind (Proc.Calm.read _) ?_)⟩
          simp only [hfile, Option.isSome_some, Bool.not_true, Bool.false_eq_true, if_false]
          exact Proc.Calm.bind hisV3 (by simpa using hrest)
        | true =>
          obtain ⟨deleted', disk', hrest⟩ := ih true (Function.update disk (ks.join name) none)
          refine ⟨deleted', disk', Proc.Calm.bind (readDir_calm _)
            (Proc.Calm.bind (Proc.Calm.read _) ?_)⟩
          have hremove : (Keystore.removeFile (ks.join name)).Calm disk (.ok ())
              (Function.update disk (ks.join name) none) := Proc.Calm.call (by rw [hfile])
          simp only [hfile, Option.isSome_some, Bool.not_true, Bool.false_eq_true, if_false]
          exact Proc.Calm.bind hisV3 (by simpa using Proc.Calm.bind hremove hrest)
  obtain ⟨deleted, disk', hrun⟩ := hloop entries (X.toLowercase legacyId) false disk
  refine ⟨deleted, disk', ?_⟩
  rw [Keystore.deleteV3, if_neg hid]
  refine Proc.Calm.bind (readDir_calm _) (Proc.Calm.bind hrun ?_)
  cases deleted with
  | true => exact Proc.Calm.bind (syncDirectory_calm _) (Proc.Calm.pure true)
  | false => exact Proc.Calm.pure false

end Keystore

/-! ## The invariant -/

/-- A registry with the type of every wallet that of its id, no wallet with an older id, and no
two wallets with one file. -/
structure Registry.Inv (X : Externals) (ks : FileKeystore) (r : Registry) : Prop
    extends Consistent X ks r where
  typed : ∀ wallet ∈ r.wallets, wallet.walletType = wallet.id.walletType
  external : ∀ wallet ∈ r.wallets, wallet.externalId = none
  files : ∀ a ∈ r.wallets, ∀ b ∈ r.wallets, a.walletType ≠ .view → b.walletType ≠ .view →
    keystoreIdForWallet X a.id = keystoreIdForWallet X b.id → a.id = b.id

section Registry

variable {X : Externals} {ks : FileKeystore} {W : WalletLib} {r r' : Registry}

/-- The rule for a call of a store. -/
lemma storeCall_all {α : Type} {f : Registry → α × Registry} {Q : α → Registry → Prop}
    {E : GemServiceError → Registry → Prop} {S : Registry → Prop} (hQ : Q (f r).1 (f r).2)
    (hE : ∀ e, E e r) (hS : S r) : (storeCall f).All r Q E S := by
  refine Proc.All.call (fun a r' h => ?_) (fun e _ => hE e) (fun _ => hE _) hS
  rw [Except.ok.inj h] at hQ
  exact hQ

/-- The rule for an operation of the keystore. -/
lemma onKeystore_all {α : Type} {x : Io α} {Q : α → Registry → Prop}
    {P : Registry → Prop}
    (h : x.All r.disk (fun a disk' => Q a (r.setDisk disk')) (fun _ disk' => P (r.setDisk disk'))
      fun disk' => P (r.setDisk disk')) : (onKeystore x).All r Q (fun _ => P) P :=
  Proc.All.mapError (Proc.All.zoom h)

/-- The invariant speaks of the disk, the wallets and the current wallet only. -/
theorem Registry.Inv.congr (h : r.Inv X ks) (hdisk : r'.disk = r.disk)
    (hwallets : r'.wallets = r.wallets) (hcurrent : r'.current = r.current) : r'.Inv X ks := by
  obtain ⟨⟨hsecrets, hcurrent₀, hnodup⟩, htyped, hexternal, hfiles⟩ := h
  refine ⟨⟨?_, ?_, ?_⟩, ?_, ?_, ?_⟩
  · rwa [hwallets, hdisk]
  · rwa [hwallets, hcurrent]
  all_goals rwa [hwallets]

/-- A secret stays where the file of its id stays. -/
lemma HasSecret.of_file {disk disk' : Disk} {id : WalletId} (h : HasSecret X ks disk id)
    (hfile : disk' (ks.pathForId (keystoreIdForWallet X id)) =
      disk (ks.pathForId (keystoreIdForWallet X id))) : HasSecret X ks disk' id := by
  obtain ⟨password, payload, hopen⟩ := h
  refine ⟨password, payload, ?_⟩
  rw [Disk.openId, hfile]
  exact hopen

/-- Where the file of an id that no wallet has changes, the invariant stays. -/
theorem Registry.Inv.setDisk (h : r.Inv X ks) {id : KeystoreId} {disk' : Disk}
    (hothers : KeepsOthers ks id r.disk disk')
    (hid : ∀ wallet ∈ r.wallets, wallet.walletType ≠ .view →
      keystoreIdForWallet X wallet.id ≠ id) : (r.setDisk disk').Inv X ks where
  secrets wallet hmem htype :=
    (h.secrets wallet hmem htype).of_file (hothers _ (hid wallet hmem htype))
  current := h.current
  nodup := h.nodup
  typed := h.typed
  external := h.external
  files := h.files

/-- A new wallet, with its secret where it needs one, is added. -/
lemma Registry.Inv.addWallet (h : r.Inv X ks) {wallet : Wallet}
    (hsecret : wallet.walletType ≠ .view → HasSecret X ks r.disk wallet.id)
    (htyped : wallet.walletType = wallet.id.walletType) (hexternal : wallet.externalId = none)
    (hfiles : wallet.walletType ≠ .view → ∀ other ∈ r.wallets, other.walletType ≠ .view →
      keystoreIdForWallet X other.id = keystoreIdForWallet X wallet.id → other.id = wallet.id) :
    ({ r with wallets := r.wallets.filter (·.id ≠ wallet.id) ++ [wallet] } :
      Registry).Inv X ks := by
  have hmem : ∀ other, other ∈ r.wallets.filter (·.id ≠ wallet.id) ++ [wallet] →
      (other ∈ r.wallets ∧ other.id ≠ wallet.id) ∨ other = wallet := by
    intro other hother
    simpa using hother
  refine ⟨⟨?_, ?_, ?_⟩, ?_, ?_, ?_⟩
  · intro other hother htype
    obtain ⟨hold, -⟩ | rfl := hmem other hother
    · exact h.secrets other hold htype
    · exact hsecret htype
  · intro id hid
    obtain ⟨other, hold, rfl⟩ := h.current id hid
    by_cases hsame : other.id = wallet.id
    · exact ⟨wallet, by simp, hsame.symm⟩
    · exact ⟨other, by simp [hold, hsame], rfl⟩
  · rw [List.map_append, List.nodup_append]
    refine ⟨(List.filter_sublist.map _).nodup h.nodup, by simp, ?_⟩
    intro a ha b hb
    obtain ⟨other, hother, rfl⟩ := List.mem_map.mp ha
    obtain rfl : b = wallet.id := by simpa using hb
    simpa using (List.mem_filter.mp hother).2
  · intro other hother
    obtain ⟨hold, -⟩ | rfl := hmem other hother
    · exact h.typed other hold
    · exact htyped
  · intro other hother
    obtain ⟨hold, -⟩ | rfl := hmem other hother
    · exact h.external other hold
    · exact hexternal
  · intro a ha b hb hta htb heq
    obtain ⟨holda, -⟩ | rfl := hmem a ha
    · obtain ⟨holdb, -⟩ | rfl := hmem b hb
      · exact h.files a holda b holdb hta htb heq
      · exact hfiles htb a holda hta heq
    · obtain ⟨holdb, -⟩ | rfl := hmem b hb
      · exact (hfiles hta b holdb htb heq.symm).symm
      · rfl

/-! ## Importing -/

/-- What `validated` has returned it returns again, for the imports that have a secret. -/
theorem validated_validated (hW : W.Lawful) {import_ import' : GemWalletImportType}
    (h : validated W import_ = .ok import')
    (hsecret : ∀ address chain, import' ≠ .address address chain) : validated W import' = .ok import' := by
  have hwords : ∀ words words', validatedWords W words = .ok words' →
      validatedWords W words' = .ok words' := by
    intro words words' hok
    rw [validatedWords, guard_eq_ok_iff, guard_eq_ok_iff] at hok
    obtain ⟨hinvalid, hvalid, hok⟩ := hok
    cases hok
    have hsame : (((words.flatMap splitWhitespace).map W.toLowercase).flatMap
        splitWhitespace).map W.toLowercase =
        (words.flatMap splitWhitespace).map W.toLowercase := by
      rw [List.flatMap_map, List.map_flatMap, ← List.flatMap_pure_eq_map]
      refine List.flatMap_congr fun word hword => ?_
      obtain ⟨text, -, hmem⟩ := List.mem_flatMap.mp hword
      simp [hW.split_lower text word hmem, hW.lower_lower]
    rw [validatedWords, hsame, if_neg hinvalid, if_neg hvalid]
  cases import_ with
  | multicoinPhrase words chains | singlePhrase words chain =>
    obtain ⟨words', hok, h⟩ := bind_eq_ok_iff.mp h
    cases h
    simp [validated, hwords words words' hok, ok_bind]
  | privateKey value chain =>
    simp only [validated] at h
    split at h
    case isTrue hdecodes =>
      cases h
      simp [validated, hdecodes]
    case isFalse => cases h
  | address address chain =>
    simp only [validated] at h
    split at h
    · cases h
      exact absurd rfl (hsecret _ _)
    · cases h

/-- A derived wallet has an id of its type, which is not that of a view wallet. -/
theorem walletType_of_keystoreDerive {import_ : GemWalletImportType} {stored : StoredWallet}
    (h : keystoreDerive W import_ = .ok stored) :
    stored.walletType = stored.walletId.walletType ∧ stored.walletType ≠ .view := by
  have hid : ∀ account walletType id, deriveWalletId account walletType = .ok id →
      walletType = id.walletType ∧ walletType ≠ .view := by
    intro account walletType id hok
    cases walletType <;> cases hok <;> simp [WalletId.walletType]
  have hmnemonic : ∀ words requested walletType idChain,
      deriveMnemonicWallet W words requested walletType idChain = .ok stored →
      stored.walletType = stored.walletId.walletType ∧ stored.walletType ≠ .view := by
    intro words requested walletType idChain hok
    rw [deriveMnemonicWallet, guard_eq_ok_iff] at hok
    obtain ⟨derived, -, hok⟩ := bind_eq_ok_iff.mp hok.2
    obtain ⟨account, -, hok⟩ := bind_eq_ok_iff.mp hok
    obtain ⟨walletId, hwalletId, hok⟩ := bind_eq_ok_iff.mp hok
    cases hok
    exact hid account walletType walletId hwalletId
  have hkey : ∀ value chain, keystoreDerive W (.privateKey value chain) = .ok stored →
      stored.walletType = stored.walletId.walletType ∧ stored.walletType ≠ .view := by
    intro value chain hok
    rw [keystoreDerive] at hok
    obtain ⟨⟨account, key⟩, -, hok⟩ := bind_eq_ok_iff.mp hok
    obtain ⟨walletId, hwalletId, hok⟩ := bind_eq_ok_iff.mp hok
    cases hok
    exact hid account _ walletId hwalletId
  cases import_ with
  | multicoinPhrase words chains => exact hmnemonic words chains _ _ h
  | singlePhrase words chain => exact hmnemonic words [chain] _ _ h
  | privateKey value chain => exact hkey value chain h
  | address address chain => exact hkey address chain h

/-- No stored wallet other than the one an import makes has the file of that one. -/
def NoCollision (X : Externals) (W : WalletLib) (r : Registry) (import_ : GemWalletImportType) :
    Prop :=
  ∀ import' stored, validated W import_ = .ok import' → keystoreDerive W import' = .ok stored →
    ∀ wallet ∈ r.wallets, wallet.walletType ≠ .view →
      keystoreIdForWallet X wallet.id = keystoreIdForWallet X stored.walletId →
      wallet.id = stored.walletId

/-- A program keeps the invariant, wherever it breaks off. -/
def KeepsInv {α : Type} (X : Externals) (ks : FileKeystore) (x : ServiceIo α) : Prop :=
  ∀ r, Registry.Inv X ks r → x.All r (fun _ r' => r'.Inv X ks) (fun _ r' => r'.Inv X ks)
    (fun r' => r'.Inv X ks)

lemma KeepsInv.pure {α : Type} (a : α) : KeepsInv X ks (pure a : ServiceIo α) :=
  fun _ h => Proc.All.pure h

lemma KeepsInv.bind {α β : Type} {x : ServiceIo α} {f : α → ServiceIo β}
    (hx : KeepsInv X ks x) (hf : ∀ a, KeepsInv X ks (f a)) : KeepsInv X ks (x >>= f) :=
  fun r h => Proc.All.bind ((hx r h).mono (fun a r' h' => hf a r' h') (fun _ _ h => h)
    fun _ h => h)

/-- A call that leaves the disk, the wallets and the current wallet alone. -/
lemma KeepsInv.storeCall {α : Type} {f : Registry → α × Registry}
    (hf : ∀ r, (f r).2.disk = r.disk ∧ (f r).2.wallets = r.wallets ∧ (f r).2.current = r.current) :
    KeepsInv X ks (storeCall f) :=
  fun r h => storeCall_all (h.congr (hf r).1 (hf r).2.1 (hf r).2.2) (fun _ => h) h

/-- Setting the flags of a created wallet keeps the invariant. -/
lemma keepsInv_completeCreated (wallet : Wallet) : KeepsInv X ks (completeCreated wallet) := by
  have hflag : ∀ key, KeepsInv X ks (setFlag wallet.id key) := by
    intro key
    refine KeepsInv.bind (fun r h => Proc.All.read h) fun flags => ?_
    split
    · exact .pure ()
    · exact .storeCall fun _ => ⟨rfl, rfl, rfl⟩
  rw [completeCreated]
  split
  · exact (hflag _).bind fun _ => (hflag _).bind fun _ => (hflag _).bind fun _ => hflag _
  · exact .pure ()

/-- What follows on the making of a wallet keeps the invariant. -/
lemma storeWallet_keeps {wallet : Wallet} (h : r.Inv X ks)
    (hnew : ({ r with wallets := r.wallets.filter (·.id ≠ wallet.id) ++ [wallet] } :
      Registry).Inv X ks) :
    (do
      storeWallet wallet
      completeCreated wallet
      invalidateSubscriptions
      pure (.new wallet) : ServiceIo GemWalletImportResult).All r (fun _ r' => r'.Inv X ks)
      (fun _ r' => r'.Inv X ks) (fun r' => r'.Inv X ks) := by
  have hnames : KeepsInv X ks (saveAddressNames wallet) := .storeCall fun _ => ⟨rfl, rfl, rfl⟩
  have hstored : (storeWallet wallet).All r (fun _ r' => r'.Inv X ks) (fun _ r' => r'.Inv X ks)
      (fun r' => r'.Inv X ks) :=
    Proc.All.bind (storeCall_all (hnames _ hnew) (fun _ => h) h)
  have hrest : KeepsInv X ks (do
      completeCreated wallet
      invalidateSubscriptions
      pure (.new wallet) : ServiceIo GemWalletImportResult) :=
    (keepsInv_completeCreated wallet).bind fun _ =>
      (KeepsInv.storeCall fun _ => ⟨rfl, rfl, rfl⟩).bind fun _ => .pure _
  exact Proc.All.bind (hstored.mono (fun _ r' => hrest r') (fun _ _ h => h) fun _ h => h)

/-- Handing out the password, or creating it, touches neither the disk nor the wallets nor the
session. -/
theorem getPassword_frame {createIfMissing : Bool} {password : String} {r r₁ : Registry}
    (h : (match r.shared with
      | some password => Except.ok (password, r)
      | none => if createIfMissing then Except.ok (r.created, { r with shared := some r.created })
        else Except.error (GemServiceError.notFound "no keystore password")) =
      Except.ok (password, r₁)) :
    r₁.disk = r.disk ∧ r₁.wallets = r.wallets ∧ r₁.current = r.current := by
  split at h
  · cases h
    exact ⟨rfl, rfl, rfl⟩
  · split at h
    · cases h
      exact ⟨rfl, rfl, rfl⟩
    · cases h

/-- `import_wallet` keeps the invariant, wherever it breaks off. -/
lemma importWallet_keeps (hX : X.Lawful) (hW : W.Lawful) (h : r.Inv X ks) (draws : Draws)
    (entries : List String) (name : String) (import_ : GemWalletImportType)
    (source : WalletSource) (hcollision : NoCollision X W r import_) :
    (importWallet X ks W draws entries name import_ source).All r (fun _ r' => r'.Inv X ks)
      (fun _ r' => r'.Inv X ks) (fun r' => r'.Inv X ks) := by
  refine Proc.All.bind (Proc.All.ofExcept (fun import' hvalidated => ?_) fun _ _ => h)
  refine Proc.All.bind (Proc.All.ofExcept (fun preview hpreview => ?_) fun _ _ => h)
  refine Proc.All.bind (Proc.All.ofExcept (fun id hid => ?_) fun _ _ => h)
  refine Proc.All.bind (storeCall_all ?_ (fun _ => h) h)
  dsimp only
  split
  case h_1 => exact Proc.All.pure h
  case h_2 hexisting =>
    -- an import with a secret: the wallet it previews is the one it stores
    have hsecret : (∀ address chain, import' ≠ .address address chain) →
        (createWallet X ks W draws entries import' id name (nextWalletIndex r.wallets) source >>=
          fun wallet => do
            storeWallet wallet
            completeCreated wallet
            invalidateSubscriptions
            pure (GemWalletImportResult.new wallet)).All r (fun _ r' => r'.Inv X ks)
          (fun _ r' => r'.Inv X ks) (fun r' => r'.Inv X ks) := by
      intro hkind
      have hagain := validated_validated hW hvalidated hkind
      obtain ⟨stored, hstored, rfl⟩ : ∃ stored, keystoreDerive W import' = .ok stored ∧
          preview = (stored.walletId.id, stored.walletType) := by
        rw [previewImport, hagain, ok_bind] at hpreview
        cases import' with
        | address address chain => exact absurd rfl (hkind address chain)
        | multicoinPhrase words chains | singlePhrase words chain | privateKey value chain =>
          obtain ⟨stored, hstored, hok⟩ := bind_eq_ok_iff.mp hpreview
          cases hok
          exact ⟨stored, mapError_eq_ok_iff.mp hstored, rfl⟩
      obtain rfl : stored.walletId = id := by simpa [okOr] using hid
      obtain ⟨htyped, hview⟩ := walletType_of_keystoreDerive hstored
      -- so no listed wallet has its id
      have habsent : ∀ wallet ∈ r.wallets, wallet.id ≠ stored.walletId := by
        intro wallet hmem heq
        have htype : wallet.walletType = stored.walletType := by
          rw [h.typed wallet hmem, heq, htyped]
        have hnot := List.find?_eq_none.mp hexisting wallet hmem
        simp [heq, htype] at hnot
      have hothers : ∀ wallet ∈ r.wallets, wallet.walletType ≠ .view →
          keystoreIdForWallet X wallet.id ≠ keystoreIdForWallet X stored.walletId :=
        fun wallet hmem hnotView heq => habsent wallet hmem
          (hcollision import' stored hvalidated hstored wallet hmem hnotView heq)
      rw [createWallet, Proc.bind_assoc]
      refine Proc.All.bind (onKeystore_all ((hasStoredWallets_readOnly ks entries r.disk).mono
        ?_ ?_ ?_))
      · rintro hasStored _ rfl
        rw [Proc.bind_assoc]
        refine Proc.All.bind (Proc.All.call (fun password r₁ hr₁ => ?_) (fun _ _ => h)
          (fun _ => h) h)
        obtain ⟨hdisk, hwallets, hcurrent⟩ : r₁.disk = r.disk ∧ r₁.wallets = r.wallets ∧
            r₁.current = r.current := getPassword_frame hr₁
        have h₁ : r₁.Inv X ks := h.congr hdisk hwallets hcurrent
        rw [Proc.bind_assoc, hstored]
        refine Proc.All.bind (Proc.All.ofExcept ?_ (fun _ herror => by cases herror))
        rintro _ ⟨⟩
        rw [Proc.bind_assoc]
        have hkeeps : ∀ disk', KeepsOthers ks (keystoreIdForWallet X stored.walletId) r₁.disk
            disk' → (r₁.setDisk disk').Inv X ks := fun disk' hkept =>
          h₁.setDisk hkept (by rw [hwallets]; exact hothers)
        refine Proc.All.bind (onKeystore_all ((createStore_all hX draws stored _).mono ?_
          (fun _ => hkeeps) hkeeps))
        rintro _ disk' ⟨hkept, hhas⟩
        refine storeWallet_keeps (hkeeps disk' hkept) ?_
        refine (hkeeps disk' hkept).addWallet (fun _ => hhas) htyped rfl ?_
        intro _ other hother hnotView heq
        exact absurd heq (hothers other (hwallets ▸ hother) hnotView)
      · rintro _ _ rfl
        exact h
      · rintro _ rfl
        exact h
    cases import' with
    | address address chain =>
      refine storeWallet_keeps h ?_
      exact h.addWallet (fun hne => absurd rfl hne) rfl rfl (fun hne => absurd rfl hne)
    | multicoinPhrase words chains | singlePhrase words chain | privateKey value chain =>
      exact hsecret (by simp)

/-! ## Deleting -/

/-- What a deletion has reached once the row is gone: everything is as it should be, except that
the session may still name the wallet. -/
structure Registry.Half (X : Externals) (ks : FileKeystore) (id : WalletId) (r : Registry) :
    Prop where
  secrets : ∀ wallet ∈ r.wallets, wallet.walletType ≠ .view → HasSecret X ks r.disk wallet.id
  current : ∀ id', r.current = some id' → id' ≠ id → ∃ wallet ∈ r.wallets, wallet.id = id'
  nodup : (r.wallets.map (·.id)).Nodup
  typed : ∀ wallet ∈ r.wallets, wallet.walletType = wallet.id.walletType
  external : ∀ wallet ∈ r.wallets, wallet.externalId = none
  files : ∀ a ∈ r.wallets, ∀ b ∈ r.wallets, a.walletType ≠ .view → b.walletType ≠ .view →
    keystoreIdForWallet X a.id = keystoreIdForWallet X b.id → a.id = b.id

/-- The half-way state with another current wallet. -/
lemma Registry.Half.inv {id : WalletId} (h : r.Half X ks id) (hdisk : r'.disk = r.disk)
    (hwallets : r'.wallets = r.wallets)
    (hcurrent : ∀ id', r'.current = some id' → ∃ wallet ∈ r.wallets, wallet.id = id') :
    r'.Inv X ks := by
  refine ⟨⟨?_, ?_, ?_⟩, ?_, ?_, ?_⟩
  · rw [hwallets, hdisk]
    exact h.secrets
  · rw [hwallets]
    exact hcurrent
  · rw [hwallets]
    exact h.nodup
  · rw [hwallets]
    exact h.typed
  · rw [hwallets]
    exact h.external
  · rw [hwallets]
    exact h.files

/-- Taking a row out where the files of the other wallets have stayed. -/
lemma Registry.Inv.half (h : r.Inv X ks) (id : WalletId) {disk' : Disk}
    (hfiles : ∀ wallet ∈ r.wallets, wallet.id ≠ id → wallet.walletType ≠ .view →
      disk' (ks.pathForId (keystoreIdForWallet X wallet.id)) =
        r.disk (ks.pathForId (keystoreIdForWallet X wallet.id))) :
    ({ r.setDisk disk' with wallets := r.wallets.filter (·.id ≠ id) } : Registry).Half X ks id := by
  have hmem : ∀ wallet, wallet ∈ r.wallets.filter (·.id ≠ id) →
      wallet ∈ r.wallets ∧ wallet.id ≠ id := by
    intro wallet hwallet
    simpa using hwallet
  constructor
  · intro wallet hwallet htype
    obtain ⟨hold, hne⟩ := hmem wallet hwallet
    exact (h.secrets wallet hold htype).of_file (hfiles wallet hold hne htype)
  · intro id' hid' hne
    obtain ⟨wallet, hold, rfl⟩ := h.current id' hid'
    exact ⟨wallet, by simp [hold, hne], rfl⟩
  · exact (List.filter_sublist.map _).nodup h.nodup
  · exact fun wallet hwallet => h.typed wallet (hmem wallet hwallet).1
  · exact fun wallet hwallet => h.external wallet (hmem wallet hwallet).1
  · exact fun a ha b hb => h.files a (hmem a ha).1 b (hmem b hb).1

/-- The wallet that is found is listed under the id. -/
lemma findWallet_all (r : Registry) (id : WalletId) :
    (findWallet id).All r (fun wallet r' => r' = r ∧ wallet ∈ r.wallets ∧ wallet.id = id)
      (fun _ r' => r' = r) (fun r' => r' = r) := by
  refine Proc.All.bind (storeCall_all ?_ (fun _ => rfl) rfl)
  refine Proc.All.ofExcept (fun wallet hwallet => ?_) fun _ _ => rfl
  have hfound : r.wallets.find? (·.id = id) = some wallet := okOr_eq_ok_iff.mp hwallet
  exact ⟨rfl, List.mem_of_find?_eq_some hfound, by simpa using List.find?_some hfound⟩

/-- A call of a store that is not disturbed. -/
lemma storeCall_calm {α : Type} (f : Registry → α × Registry) :
    (storeCall f).Calm r (.ok (f r).1) (f r).2 := Proc.Calm.call rfl

/-- An operation of the keystore that is not disturbed. -/
lemma onKeystore_calm {α : Type} {x : Io α} {a : α} {disk' : Disk}
    (h : x.Calm r.disk (.ok a) disk') : (onKeystore x).Calm r (.ok a) (r.setDisk disk') := by
  have hzoom : (Proc.zoom Registry.disk Registry.setDisk x :
      Proc Registry KeystoreError α).Calm r (.ok a) (r.setDisk disk') := by
    rw [Proc.Calm, Proc.zoom, h]
  exact Proc.Calm.bind (Proc.Calm.attempt hzoom) (Proc.Calm.pure a)

/-- An undisturbed deletion of the secrets and the row gets half-way. -/
lemma deleteSecretsAndRow_quiet (hX : X.Lawful) (hlower : LowersAscii X) (h : r.Inv X ks)
    (entries : List String) {wallet : Wallet} (hmem : wallet ∈ r.wallets)
    (htype : wallet.walletType ≠ .view) :
    (deleteSecretsAndRow X ks entries wallet).Quiet r
      (fun _ r' => r'.Half X ks wallet.id ∧ r'.current = r.current) (fun _ _ => False) := by
  obtain ⟨deleted, hdelete⟩ :=
    @delete_calm ks r.disk (keystoreIdForWallet X wallet.id)
  have hlegacy : legacyKeystoreId wallet = wallet.id.id := by
    rw [legacyKeystoreId, h.external wallet hmem]
    rfl
  have hid : wallet.id.id ≠ "" := by
    intro hempty
    have := wallet.id.separator_mem_id
    simp [hempty] at this
  obtain ⟨deletedV3, disk', hdeleteV3⟩ := @deleteV3_calm X ks
    (Function.update r.disk (ks.pathForId (keystoreIdForWallet X wallet.id)) none) _ hid entries
  have hrun : (deleteSecretsAndRow X ks entries wallet).Calm r (.ok ())
      { r.setDisk disk' with wallets := r.wallets.filter (·.id ≠ wallet.id) } := by
    rw [deleteSecretsAndRow, if_neg htype, hlegacy]
    refine Proc.Calm.bind (Proc.Calm.bind (onKeystore_calm hdelete) (Proc.Calm.bind
      (onKeystore_calm hdeleteV3) (Proc.Calm.pure ()))) ?_
    exact Proc.Calm.bind (storeCall_calm _) (Proc.Calm.pure ())
  refine ⟨_, _, hrun, h.half wallet.id ?_, rfl⟩
  -- another wallet's file is neither the one removed nor taken for an old one
  intro other hother hne hotherType
  have hkeystore : keystoreIdForWallet X other.id ≠ keystoreIdForWallet X wallet.id := fun heq =>
    hne (h.files other hother wallet hmem hotherType htype heq)
  have hkept := keepsOthers_update ks (keystoreIdForWallet X wallet.id) r.disk none _ hkeystore
  obtain ⟨password, payload, hopen⟩ := (h.secrets other hother hotherType).of_file hkept
  have hdeleted : Keystore.DeletedV3 X ks (X.toLowercase wallet.id.id)
      (Function.update r.disk (ks.pathForId (keystoreIdForWallet X wallet.id)) none) disk' :=
    (Keystore.deleteV3_all wallet.id.id entries).of_ok hdeleteV3
  exact (deletedV3_keeps hX hlower hdeleted hopen).trans hkept

/-- The row of a view wallet. -/
lemma deleteSecretsAndRow_view (h : r.Inv X ks) (entries : List String) {wallet : Wallet}
    (htype : wallet.walletType = .view) :
    (deleteSecretsAndRow X ks entries wallet).All r
      (fun _ r' => r'.Half X ks wallet.id ∧ r'.current = r.current) (fun _ r' => r' = r)
      (fun r' => r' = r) := by
  rw [deleteSecretsAndRow, if_pos htype]
  have hhalf : ({ r.setDisk r.disk with wallets := r.wallets.filter (·.id ≠ wallet.id) } :
      Registry).Half X ks wallet.id := h.half wallet.id fun _ _ _ _ => rfl
  refine Proc.All.bind (Proc.All.pure (Proc.All.bind (storeCall_all ?_ (fun _ => rfl) rfl)))
  exact Proc.All.pure ⟨hhalf, rfl⟩

/-- What is deleted under the text of a keystore id. -/
lemma delete_value (id : KeystoreId) :
    Keystore.delete ks id.value =
      (do
        match ← ((Keystore.removeFile (ks.pathForId id)).attempt :
            Io (Except KeystoreError Unit)) with
        | .ok () => do
          Keystore.syncDirectory
          pure true
        | .error .notFound => pure false
        | .error error => Proc.throw error) := by
  rw [Keystore.delete, KeystoreId.parse_value]
  rfl

/-- A deletion whose first call on the keystore fails, or is never made, leaves everything as
it is. -/
theorem deleteSecretsAndRow_refused (r : Registry) (entries : List String) {wallet : Wallet}
    (htype : wallet.walletType ≠ .view) {faults : List Fault}
    (hhead : ∃ fault rest, faults = fault :: rest ∧ fault ≠ .pass) :
    (∀ a, (deleteSecretsAndRow X ks entries wallet r faults).1 ≠ .ok a) ∧
      (deleteSecretsAndRow X ks entries wallet r faults).2.1 = r := by
  obtain ⟨fault, rest, rfl, hpass⟩ := hhead
  rw [deleteSecretsAndRow, if_neg htype, deleteWalletSecrets, delete_value]
  cases fault with
  | pass => exact absurd rfl hpass
  | fail message | stop => exact ⟨fun a ha => (by cases ha), rfl⟩

/-- The next current wallet is a listed one. -/
lemma mem_of_nextCurrentWallet {wallets : List Wallet} {id : WalletId}
    (h : nextCurrentWallet wallets = some id) : ∃ wallet ∈ wallets, wallet.id = id := by
  have hmin : ∀ (wallets : List Wallet) wallet, minWallet wallets = some wallet →
      wallet ∈ wallets := by
    intro wallets
    induction wallets with
    | nil => simp [minWallet]
    | cons first wallets ih =>
      intro wallet hwallet
      simp only [minWallet] at hwallet
      split at hwallet
      · cases hwallet
        exact List.mem_cons_self
      · split at hwallet
        · cases hwallet
          exact List.mem_cons_of_mem _ (ih _ ‹_›)
        · cases hwallet
          exact List.mem_cons_self
  obtain ⟨wallet, hwallet, rfl⟩ := Option.map_eq_some_iff.mp h
  exact ⟨wallet, hmin wallets wallet hwallet, rfl⟩

/-- Writing a listed wallet, or none, into the session keeps the invariant. -/
lemma setSessionWalletId_keeps (h : r.Inv X ks) {id : Option WalletId}
    (hid : ∀ id', id = some id' → ∃ wallet ∈ r.wallets, wallet.id = id') :
    (setSessionWalletId id).All r (fun _ r' => r'.Inv X ks) (fun _ r' => r'.Inv X ks)
      (fun r' => r'.Inv X ks) := by
  refine Proc.All.bind (storeCall_all ?_ (fun _ => h) h)
  dsimp only
  split
  · exact Proc.All.pure h
  · exact storeCall_all
      ⟨⟨h.secrets, hid, h.nodup⟩, h.typed, h.external, h.files⟩ (fun _ => h) h

/-- What follows on the row keeps the invariant, if the session does not name the wallet. -/
theorem forgetWallet_keeps (wallet : Wallet) : KeepsInv X ks (forgetWallet wallet) := by
  have hnext : ∀ r : Registry, ∀ id', nextCurrentWallet r.wallets = some id' →
      ∃ wallet ∈ r.wallets, wallet.id = id' := fun _ _ => mem_of_nextCurrentWallet
  refine (KeepsInv.storeCall fun _ => ⟨rfl, rfl, rfl⟩).bind fun _ => ?_
  refine KeepsInv.bind ?_ fun _ => ?_
  · rw [deleteImage]
    split
    · exact .storeCall fun _ => ⟨rfl, rfl, rfl⟩
    · exact .pure ()
  refine (KeepsInv.storeCall fun _ => ⟨rfl, rfl, rfl⟩).bind fun _ => ?_
  intro r h
  refine Proc.All.bind (storeCall_all ?_ (fun _ => h) h)
  have hsettle : (settleSession wallet r.wallets).All r (fun _ r' => r'.Inv X ks)
      (fun _ r' => r'.Inv X ks) (fun r' => r'.Inv X ks) := by
    rw [settleSession]
    split
    · exact setSessionWalletId_keeps h (hnext r)
    · refine Proc.All.bind (storeCall_all ?_ (fun _ => h) h)
      dsimp only
      split
      · exact setSessionWalletId_keeps h (hnext r)
      · exact Proc.All.pure h
  exact Proc.All.bind (hsettle.mono (fun _ _ h => Proc.All.pure h) (fun _ _ h => h) fun _ h => h)

/-- An undisturbed settling of the session leaves it with a listed wallet or none. -/
theorem settleSession_quiet {wallet : Wallet} (h : r.Half X ks wallet.id)
    (hcurrent : r.current = some wallet.id) :
    (settleSession wallet r.wallets).Quiet r (fun _ r' => r'.Inv X ks) (fun _ _ => False) := by
  have hset : (setSessionWalletId (nextCurrentWallet r.wallets)).Quiet r
      (fun _ r' => r'.Inv X ks) (fun _ _ => False) := by
    refine Proc.Quiet.bind ⟨_, _, storeCall_calm _, ?_⟩
    change ((if r.current = nextCurrentWallet r.wallets then pure () else
      storeCurrentWalletId (nextCurrentWallet r.wallets)) : ServiceIo Unit).Quiet r _ _
    split
    case isTrue hsame =>
      exact Proc.Quiet.pure (h.inv rfl rfl fun id' hid' =>
        mem_of_nextCurrentWallet (hsame ▸ hid'))
    case isFalse =>
      exact ⟨_, _, storeCall_calm _, h.inv rfl rfl fun id' hid' => mem_of_nextCurrentWallet hid'⟩
  rw [settleSession]
  split
  · exact hset
  · refine Proc.Quiet.bind ⟨_, _, storeCall_calm _, ?_⟩
    change ((if r.current = some wallet.id then setSessionWalletId (nextCurrentWallet r.wallets)
      else pure ()) : ServiceIo Unit).Quiet r _ _
    rw [if_pos hcurrent]
    exact hset

/-- An undisturbed end of a deletion settles the session. -/
lemma forgetWallet_quiet {wallet : Wallet} (h : r.Half X ks wallet.id)
    (hcurrent : r.current = some wallet.id) :
    (forgetWallet wallet).Quiet r (fun _ r' => r'.Inv X ks) (fun _ _ => False) := by
  have hrest : ∀ r' : Registry, r'.Half X ks wallet.id → r'.current = some wallet.id → (do
      deletePreferences wallet.id
      let remaining ← getWallets
      settleSession wallet remaining
      pure remaining : ServiceIo (List Wallet)).Quiet r' (fun _ r' => r'.Inv X ks)
        (fun _ _ => False) := by
    intro r' h' hcurrent'
    have h'' : ({ r' with preferences := Function.update r'.preferences wallet.id [] } :
        Registry).Half X ks wallet.id :=
      ⟨h'.secrets, h'.current, h'.nodup, h'.typed, h'.external, h'.files⟩
    refine Proc.Quiet.bind ⟨_, _, storeCall_calm _, ?_⟩
    refine Proc.Quiet.bind ⟨_, _, storeCall_calm _, ?_⟩
    exact Proc.Quiet.bind ((settleSession_quiet h'' hcurrent').mono
      (fun _ _ hinv => Proc.Quiet.pure hinv) fun _ _ hfalse => hfalse)
  refine Proc.Quiet.bind ⟨_, _, storeCall_calm _, ?_⟩
  have h₁ : ({ r with names := setNames r.names wallet none } : Registry).Half X ks wallet.id :=
    ⟨h.secrets, h.current, h.nodup, h.typed, h.external, h.files⟩
  refine Proc.Quiet.bind ?_
  rw [deleteImage]
  split
  · exact ⟨_, _, storeCall_calm _, hrest _
      ⟨h₁.secrets, h₁.current, h₁.nodup, h₁.typed, h₁.external, h₁.files⟩ hcurrent⟩
  · exact Proc.Quiet.pure (hrest _ h₁ hcurrent)

/-- A deletion that settles. Once the file of the secret is about to be removed, no call up to the
deletion of the row is disturbed; and where the wallet is the current one, no call from there to
the writing of the session is. -/
def Settles (X : Externals) (ks : FileKeystore) (r : Registry) (entries : List String)
    (id : WalletId) (faults : List Fault) : Prop :=
  ∀ wallet rest, findWallet id r faults = (.ok wallet, r, rest) →
    (wallet.walletType ≠ .view → (∀ fault, rest.head? = some fault → fault = .pass) →
      (deleteSecretsAndRow X ks entries wallet).Spares r rest) ∧
    (r.current = some id → ∀ r₁ rest₁,
      deleteSecretsAndRow X ks entries wallet r rest = (.ok (), r₁, rest₁) →
      (forgetWallet wallet).Spares r₁ rest₁)

/-- A deletion of secrets and row that settles has changed nothing or gets half-way. -/
theorem deleteSecretsAndRow_settles (hX : X.Lawful) (hlower : LowersAscii X) (h : r.Inv X ks)
    {entries : List String} {wallet : Wallet} (hmem : wallet ∈ r.wallets) {faults : List Fault}
    (hspares : wallet.walletType ≠ .view → (∀ fault, faults.head? = some fault → fault = .pass) →
      (deleteSecretsAndRow X ks entries wallet).Spares r faults) :
    Proc.Post (fun _ r' => r'.Half X ks wallet.id ∧ r'.current = r.current) (fun _ r' => r' = r)
      (fun r' => r' = r) (deleteSecretsAndRow X ks entries wallet r faults).1
      (deleteSecretsAndRow X ks entries wallet r faults).2.1 := by
  by_cases htype : wallet.walletType = .view
  · exact deleteSecretsAndRow_view h entries htype faults
  · by_cases hhead : ∀ fault, faults.head? = some fault → fault = .pass
    · have hpost := (deleteSecretsAndRow_quiet hX hlower h entries hmem htype).of_spares
        (hspares htype hhead)
      generalize deleteSecretsAndRow X ks entries wallet r faults = run at hpost ⊢
      obtain ⟨outcome, r', rest⟩ := run
      cases outcome with
      | ok a => exact hpost
      | error e | stopped => exact hpost.elim
    · have hrefused : ∃ fault rest, faults = fault :: rest ∧ fault ≠ .pass := by
        cases faults with
        | nil => simp at hhead
        | cons fault rest => exact ⟨fault, rest, rfl, by simpa using hhead⟩
      obtain ⟨hnot, hsame⟩ := deleteSecretsAndRow_refused r entries htype hrefused
      generalize deleteSecretsAndRow X ks entries wallet r faults = run at hnot hsame ⊢
      obtain ⟨outcome, r', rest⟩ := run
      cases outcome with
      | ok a => exact absurd rfl (hnot a)
      | error e | stopped => exact hsame

/-- `delete_wallet` keeps the invariant, if it settles. -/
lemma deleteWallet_keeps (hX : X.Lawful) (hlower : LowersAscii X) (h : r.Inv X ks)
    {entries : List String} {id : WalletId} {faults : List Fault}
    (hsettles : Settles X ks r entries id faults) :
    (deleteWallet X ks entries id r faults).2.1.Inv X ks := by
  have hlast : ∀ remaining : List Wallet, KeepsInv X ks (do
      invalidateSubscriptions
      pure (if remaining = [] then .lastWalletDeleted else .walletsRemaining) :
        ServiceIo GemWalletDeletion) := fun remaining =>
    (KeepsInv.storeCall fun _ => ⟨rfl, rfl, rfl⟩).bind fun _ => .pure _
  have hend : ∀ {α : Type} {x : ServiceIo α} {r₀ : Registry}, x.All r₀ (fun _ r' => r'.Inv X ks)
      (fun _ r' => r'.Inv X ks) (fun r' => r'.Inv X ks) → ∀ faults, (x r₀ faults).2.1.Inv X ks := by
    intro α x r₀ hall faults
    have hpost := hall faults
    generalize x r₀ faults = run at hpost ⊢
    obtain ⟨outcome, r', rest⟩ := run
    cases outcome <;> exact hpost
  have hfind := findWallet_all r id faults
  rw [deleteWallet, Proc.bind_apply]
  rcases hfound : findWallet id r faults with ⟨wallet | e | _, r₀, rest⟩
  · rw [hfound] at hfind
    obtain ⟨rfl, hmem, rfl⟩ := hfind
    obtain ⟨hspares, hsession⟩ := hsettles wallet rest hfound
    have hhalf := deleteSecretsAndRow_settles hX hlower h hmem hspares
    dsimp only
    rw [Proc.bind_apply]
    rcases hdeleted : deleteSecretsAndRow X ks entries wallet r₀ rest with
      ⟨_ | e | _, r₁, rest₁⟩
    · rw [hdeleted] at hhalf
      obtain ⟨hhalf, hcurrent⟩ := hhalf
      dsimp only
      by_cases hnamed : r₀.current = some wallet.id
      · have hquiet := (forgetWallet_quiet hhalf (hcurrent.trans hnamed)).of_spares
          (hsession hnamed r₁ rest₁ hdeleted)
        rw [Proc.bind_apply]
        rcases hforget : forgetWallet wallet r₁ rest₁ with ⟨remaining | e | _, r₂, rest₂⟩
        · rw [hforget] at hquiet
          exact hend (hlast remaining r₂ hquiet) rest₂
        · rw [hforget] at hquiet
          exact hquiet.elim
        · rw [hforget] at hquiet
          exact hquiet.elim
      · -- the session names another wallet, which is still listed
        have hinv : r₁.Inv X ks := hhalf.inv rfl rfl fun id' hid' =>
          hhalf.current id' hid' fun heq => hnamed (by rw [← hcurrent, hid', heq])
        exact hend ((forgetWallet_keeps wallet).bind hlast r₁ hinv) rest₁
    · rw [hdeleted] at hhalf
      obtain rfl := hhalf
      exact h
    · rw [hdeleted] at hhalf
      obtain rfl := hhalf
      exact h
  · rw [hfound] at hfind
    obtain rfl := hfind
    exact h
  · rw [hfound] at hfind
    obtain rfl := hfind
    exact h

end Registry

/-! ## Runs -/

/-- One operation with the schedule of its calls. The current wallet is set to a listed one. -/
def registryStep (X : Externals) (ks : FileKeystore) (W : WalletLib) (r : Registry)
    (e : RegistryOp × List Fault) : Option Registry :=
  match e.1 with
  | .setCurrentWalletId id =>
    if r.wallets.any (·.id = id) then some (setCurrentWalletId id r e.2).2.1 else none
  | op => some (op.run X ks W r e.2).2.1

/-- The condition on an operation: the file of an imported wallet is not that of another one, and
a deletion settles. -/
def Settled (X : Externals) (ks : FileKeystore) (W : WalletLib) (r : Registry) :
    RegistryOp × List Fault → Prop
  | (.importWallet _ _ _ import_ _, _) => NoCollision X W r import_
  | (.deleteWallet entries id, faults) => Settles X ks r entries id faults
  | (.setCurrentWalletId _, _) => True

/-- A wallet whose deletion has failed after its secret was removed is not listed any more. -/
def DeletedUnlisted (X : Externals) (ks : FileKeystore) (r : Registry)
    (e : RegistryOp × List Fault) : Prop :=
  ∀ entries id faults error r' rest, e = (.deleteWallet entries id, faults) →
    deleteWallet X ks entries id r faults = (.error error, r', rest) →
    HasSecret X ks r.disk id → ¬ HasSecret X ks r'.disk id →
    ∀ wallet ∈ r'.wallets, wallet.walletType ≠ .view → wallet.id ≠ id

/-- A device that the app has not been used on. -/
def Registry.Fresh (r : Registry) : Prop := r.wallets = [] ∧ r.current = none

/-- The end of a run is consistent, and at each of its deletions the wallet is not left listed
without its secret. -/
def KeepsConsistent (X : Externals) (ks : FileKeystore) (W : WalletLib) (r : Registry)
    (es : List (RegistryOp × List Fault)) : Prop :=
  (∀ r', runEvents (registryStep X ks W) r es = some r' → Consistent X ks r') ∧
    Along (registryStep X ks W) (DeletedUnlisted X ks) r es

/-- Running a program for its effect. -/
lemma state_discard {α : Type} (x : ServiceIo α) (r : Registry) (faults : List Fault) :
    ((do
      let _ ← x
      pure () : ServiceIo Unit) r faults).2.1 = (x r faults).2.1 := by
  rw [Proc.bind_apply]
  rcases x r faults with ⟨a | e | _, r', rest⟩ <;> rfl

/-- **Step lemma**: an operation that settles keeps the invariant. -/
lemma registryStep_keeps {X : Externals} (hX : X.Lawful) (hlower : LowersAscii X)
    {ks : FileKeystore} {W : WalletLib} (hW : W.Lawful) {r r' : Registry}
    {e : RegistryOp × List Fault} (h : r.Inv X ks) (hsettled : Settled X ks W r e)
    (hstep : registryStep X ks W r e = some r') : r'.Inv X ks := by
  obtain ⟨op, faults⟩ := e
  cases op with
  | importWallet draws entries name import_ source =>
    cases hstep
    rw [RegistryOp.run, state_discard]
    have hpost := importWallet_keeps hX hW h draws entries name import_ source hsettled faults
    generalize importWallet X ks W draws entries name import_ source r faults = run at hpost ⊢
    obtain ⟨outcome, r', rest⟩ := run
    cases outcome <;> exact hpost
  | deleteWallet entries id =>
    cases hstep
    rw [RegistryOp.run, state_discard]
    exact deleteWallet_keeps hX hlower h hsettled
  | setCurrentWalletId id =>
    simp only [registryStep] at hstep
    split at hstep
    case isTrue hlisted =>
      cases hstep
      have hid : ∀ id', some id = some id' → ∃ wallet ∈ r.wallets, wallet.id = id' := by
        rintro _ ⟨⟩
        simpa using hlisted
      have hpost := setSessionWalletId_keeps h hid faults
      rw [setCurrentWalletId]
      generalize setSessionWalletId (some id) r faults = run at hpost ⊢
      obtain ⟨outcome, r', rest⟩ := run
      cases outcome <;> exact hpost
    case isFalse => cases hstep

/-- In every run of imports, deletions and changes of the current wallet on a fresh device, with
any of their calls failing or being the last, in which every deletion settles: every state is
consistent, and a wallet whose deletion failed after its secret was removed is not listed.

**Proof sketch.** The type of a wallet is that of its id, so that an import finds the wallet it
would double, and the secrets of the other wallets are in other files (`Registry.Inv`). Importing
stores the secret before the row and keeps this wherever it breaks off. Deleting is half-way once
the row is gone (`Registry.Half`), and whole again once the session has been looked at. -/
theorem consistent_of_settled {X : Externals} (hX : X.Lawful) (hlower : LowersAscii X)
    (ks : FileKeystore) {W : WalletLib} (hW : W.Lawful) (r : Registry) (hr : r.Fresh)
    (es : List (RegistryOp × List Fault))
    (h : Along (registryStep X ks W) (Settled X ks W) r es) :
    KeepsConsistent X ks W r es := by
  have hfresh : r.Inv X ks := by
    obtain ⟨hwallets, hcurrent⟩ := hr
    refine ⟨⟨?_, ?_, ?_⟩, ?_, ?_, ?_⟩ <;> simp [hwallets, hcurrent]
  have hstep : ∀ r e r', Registry.Inv X ks r → Settled X ks W r e →
      registryStep X ks W r e = some r' → Registry.Inv X ks r' :=
    fun _ _ _ hI hP hs => registryStep_keeps hX hlower hW hI hP hs
  refine ⟨fun r' hrun => (runEvents_invariant hstep hfresh h hrun).toConsistent, ?_⟩
  refine along_of_along hstep ?_ hfresh h
  rintro r e hI hsettled entries id faults error r' rest rfl hrun - hgone wallet hmem htype rfl
  have hafter := deleteWallet_keeps hX hlower hI hsettled
  rw [hrun] at hafter
  exact hgone (hafter.secrets wallet hmem htype)

/-! ## Concrete runs -/

/-- Libraries that take a key as it is, and its text as the address. -/
def sampleLib : WalletLib where
  toLowercase := id
  invalidWords := fun _ => []
  isValidPhrase := fun _ => true
  decodesPrivateKey := fun _ _ => true
  checksumAddress := fun address _ => address
  validateAddress := fun _ _ => true
  deriveAccounts := fun _ chains => .ok (chains.map fun chain => ⟨chain, "0x1", "", none⟩)
  importAccount := fun key chain => .ok (⟨chain, key, "", none⟩, key.toUTF8.data.toList)

lemma sampleLib_lawful : sampleLib.Lawful := by
  refine ⟨fun text word hword => ?_, fun _ => rfl⟩
  obtain ⟨chars, hchars, rfl⟩ := List.mem_map.mp hword
  simp [splitWhitespace, splitWhitespace_of_mem hchars, sampleLib]

/-- A fresh device. -/
def sampleRegistry : Registry where
  disk := fun _ => none
  wallets := []
  current := none
  names := fun _ => none
  files := fun _ => false
  preferences := fun _ => []
  subscriptionsVersion := 0
  shared := none
  created := "00"

/-- The wallet of the key. -/
def sampleWalletId : WalletId := .privateKey .ethereum "07"

/-- The import of the key. -/
def sampleImportOp : RegistryOp :=
  .importWallet Keystore.sampleDraws [] "Key" (.privateKey "07" .ethereum) .import

/-- The deletion of its wallet. -/
def sampleDeleteOp : RegistryOp := .deleteWallet [] sampleWalletId

/-- The state an operation leaves. -/
def sampleRun (op : RegistryOp) (faults : List Fault) (r : Registry) : Registry :=
  (op.run Keystore.reference Keystore.sampleKeystore sampleLib r faults).2.1

/-- One step of a sample run. -/
def sampleStep : Registry → RegistryOp × List Fault → Option Registry :=
  registryStep Keystore.reference Keystore.sampleKeystore sampleLib

lemma sampleStep_import (faults : List Fault) (r : Registry) :
    sampleStep r (sampleImportOp, faults) = some (sampleRun sampleImportOp faults r) := rfl

lemma sampleStep_delete (faults : List Fault) (r : Registry) :
    sampleStep r (sampleDeleteOp, faults) = some (sampleRun sampleDeleteOp faults r) := rfl

/-- The device with the wallet. -/
def sampleImported : Registry := sampleRun sampleImportOp [] sampleRegistry

/-- The schedule of a deletion that fails at the secret. -/
def sampleFailedSecret : List Fault := [.pass, .fail "permission denied"]

/-- A wallet is imported, its deletion fails, and it is deleted. -/
theorem consistent_of_settled_sample :
    KeepsConsistent Keystore.reference Keystore.sampleKeystore sampleLib sampleRegistry
      [(sampleImportOp, []), (sampleDeleteOp, sampleFailedSecret), (sampleDeleteOp, [])] := by
  have hlower : LowersAscii Keystore.reference := ⟨fun _ _ => rfl, fun _ h => h⟩
  refine consistent_of_settled Keystore.reference_lawful hlower Keystore.sampleKeystore
    sampleLib_lawful sampleRegistry ⟨rfl, rfl⟩ _ ?_
  have hdelete : ∀ r faults rest, r.current = none → (findWallet sampleWalletId r faults).2.2 = rest →
      (rest = [] ∨ rest.head? ≠ some .pass ∧ rest ≠ []) → Settled Keystore.reference
        Keystore.sampleKeystore sampleLib r (sampleDeleteOp, faults) := by
    rintro r faults rest hnone hrest hcases wallet rest' hfound
    rw [hfound] at hrest
    obtain rfl : rest' = rest := hrest
    refine ⟨fun _ hhead => ?_, fun hcurrent => by rw [hnone] at hcurrent; cases hcurrent⟩
    obtain rfl | ⟨hpass, hne⟩ := hcases
    · exact ⟨rfl, rfl⟩
    · obtain ⟨fault, rest, rfl⟩ := List.exists_cons_of_ne_nil hne
      exact absurd (congrArg some (hhead fault rfl)) hpass
  refine .cons (fun _ _ _ _ wallet hmem => by cases hmem) (sampleStep_import [] sampleRegistry)
    (.cons (hdelete _ _ [.fail "permission denied"] ?_ ?_ (.inr ⟨by simp, by simp⟩))
      (sampleStep_delete _ sampleImported)
      (.cons (hdelete _ _ [] ?_ ?_ (.inl rfl)) (sampleStep_delete [] _) trivial)) <;>
    decide +kernel

/-- The schedule of a deletion that fails at the row, when the secret is gone. -/
def sampleFailedRow : List Fault := [.pass, .pass, .pass, .pass, .fail "database is locked"]

/-- The schedule of a deletion that fails at the address book, when the row is gone. -/
def sampleFailedNames : List Fault :=
  [.pass, .pass, .pass, .pass, .pass, .fail "database is locked"]

/-- The device with the wallet as the current one. -/
def sampleCurrent : Registry := (setCurrentWalletId sampleWalletId sampleImported []).2.1

/-- A deletion leaves a listed wallet without its secret, and another one leaves the session with
a wallet that is not listed. -/
theorem not_keepsConsistent_sample :
    ¬ KeepsConsistent Keystore.reference Keystore.sampleKeystore sampleLib sampleRegistry
        [(sampleImportOp, []), (sampleDeleteOp, sampleFailedRow)] ∧
      ¬ KeepsConsistent Keystore.reference Keystore.sampleKeystore sampleLib sampleRegistry
        [(sampleImportOp, []), (.setCurrentWalletId sampleWalletId, []),
          (sampleDeleteOp, sampleFailedNames)] := by
  constructor
  · rintro ⟨hconsistent, -⟩
    have hrun : runEvents sampleStep sampleRegistry
        [(sampleImportOp, []), (sampleDeleteOp, sampleFailedRow)] =
          some (sampleRun sampleDeleteOp sampleFailedRow sampleImported) :=
      runEvents_cons_eq_some.mpr ⟨_, sampleStep_import [] sampleRegistry,
        runEvents_cons_eq_some.mpr ⟨_, sampleStep_delete _ _, runEvents_nil _⟩⟩
    have hwallets : ∃ wallet ∈ (sampleRun sampleDeleteOp sampleFailedRow sampleImported).wallets,
        wallet.id = sampleWalletId ∧ wallet.walletType = .privateKey := by
      decide +kernel
    have hdisk : (sampleRun sampleDeleteOp sampleFailedRow sampleImported).disk
        (Keystore.sampleKeystore.pathForId
          (keystoreIdForWallet Keystore.reference sampleWalletId)) = none := by
      decide +kernel
    obtain ⟨wallet, hmem, hid, htype⟩ := hwallets
    obtain ⟨password, payload, hopen⟩ :=
      (hconsistent _ hrun).secrets wallet hmem (by rw [htype]; decide)
    rw [hid, Disk.openId, hdisk] at hopen
    cases hopen
  · rintro ⟨hconsistent, -⟩
    have hset : sampleStep sampleImported (.setCurrentWalletId sampleWalletId, []) =
        some sampleCurrent := by
      have hlisted : sampleImported.wallets.any (·.id = sampleWalletId) = true := by
        decide +kernel
      simp only [sampleStep, registryStep, hlisted, if_true, sampleCurrent]
    have hrun : runEvents sampleStep sampleRegistry
        [(sampleImportOp, []), (.setCurrentWalletId sampleWalletId, []),
          (sampleDeleteOp, sampleFailedNames)] =
          some (sampleRun sampleDeleteOp sampleFailedNames sampleCurrent) :=
      runEvents_cons_eq_some.mpr ⟨_, sampleStep_import [] sampleRegistry,
        runEvents_cons_eq_some.mpr ⟨_, hset,
          runEvents_cons_eq_some.mpr ⟨_, sampleStep_delete _ _, runEvents_nil _⟩⟩⟩
    have hwallets : (sampleRun sampleDeleteOp sampleFailedNames sampleCurrent).wallets = [] := by
      decide +kernel
    have hcurrent : (sampleRun sampleDeleteOp sampleFailedNames sampleCurrent).current =
        some sampleWalletId := by
      decide +kernel
    obtain ⟨wallet, hmem, -⟩ := (hconsistent _ hrun).current sampleWalletId hcurrent
    rw [hwallets] at hmem
    cases hmem

example : WalletId.fromId sampleWalletId.id = some sampleWalletId := by decide +kernel

end GemCore.WalletService
