import GemCore.Keystore.ReaderV3
import GemCore.Lib.Proc

/-!
# The file keystore

The operations of `FileKeystore` (`storage/file_keystore.rs`) as programs whose file-system
calls can fail, or be the last thing the process does. Each operation has one lemma that says
what it can have done to the disk, however the run went.

The lock that serialises the operations never fails and is left out: each operation runs by
itself.

## Main definitions

* `Disk` — the files, by path.
* `writeNewFile` — stage a file, then rename it into place.
* `importPayloadUnlocked`, `importV3`, `deleteV3`, `changePassword`, `delete` — the operations.
* `Disk.openId` — what the file of an id holds under a password.

## Main results

* `writeNewFile_all` — staging changes the target at most, and only whole.
* `importPayloadUnlocked_all`, `importV3_all`, `changePassword_all`, `deleteV3_all` — what the
  operations do.
* `decryptPayloadUnlocked_calm` — an undisturbed decrypt returns what the file holds.
-/

namespace GemCore.Keystore

open Lib (Proc)

/-! ## File-system calls -/

/-- The files, by path. -/
abbrev Disk : Type := String → Option (List UInt8)

/-- Programs over the disk. -/
abbrev Io (α : Type) : Type := Proc Disk KeystoreError α

/-- A file-system call; a failure the disk does not explain is an `Io` error. -/
def fsCall {α : Type} (f : Disk → Except KeystoreError (α × Disk)) : Io α := Proc.call .io f

/-- `Path::exists` and `Path::is_file`. -/
def pathExists (path : String) : Io Bool := Proc.read fun disk => (disk path).isSome

/-- `fs::create_dir_all` of the base directory. -/
def createDirAll : Io Unit := fsCall fun disk => .ok ((), disk)

/-- `OpenOptions::create_new`. -/
def createNew (path : String) : Io Unit := fsCall fun disk =>
  match disk path with
  | some _ => .error .alreadyExists
  | none => .ok ((), Function.update disk path (some []))

/-- `set_owner_read_write`. -/
def setOwnerReadWrite (path : String) : Io Unit := fsCall fun disk =>
  match disk path with
  | some _ => .ok ((), disk)
  | none => .error .notFound

/-- `write_all` through the handle of a file just created. -/
def writeAll (path : String) (bytes : List UInt8) : Io Unit := fsCall fun disk =>
  .ok ((), Function.update disk path (some bytes))

/-- `sync_all` of a file. -/
def syncAll : Io Unit := fsCall fun disk => .ok ((), disk)

/-- `fs::rename`. -/
def rename (source target : String) : Io Unit := fsCall fun disk =>
  match disk source with
  | some bytes => .ok ((), Function.update (Function.update disk target (some bytes)) source none)
  | none => .error .notFound

/-- `sync_directory` of the base directory. -/
def syncDirectory : Io Unit := fsCall fun disk => .ok ((), disk)

/-- `fs::remove_file`. -/
def removeFile (path : String) : Io Unit := fsCall fun disk =>
  match disk path with
  | some _ => .ok ((), Function.update disk path none)
  | none => .error .notFound

/-- `read_capped`. -/
def readCapped (path : String) (cap : ℕ) : Io (List UInt8) := fsCall fun disk =>
  match disk path with
  | some bytes =>
    if bytes.length > cap then .error (.corruptFile "file too large") else .ok (bytes, disk)
  | none => .error .notFound

/-- A step of `fs::read_dir`: opening the directory, or fetching the next entry. -/
def readDir : Io Unit := fsCall fun disk => .ok ((), disk)

/-! ## Operations -/

/-- `FileKeystore`. -/
structure FileKeystore where
  baseDir : String
  defaultKdf : KdfParams

/-- A name in the base directory. -/
def FileKeystore.join (ks : FileKeystore) (name : String) : String := ks.baseDir ++ "/" ++ name

/-- `path_for_id`. -/
def FileKeystore.pathForId (ks : FileKeystore) (id : KeystoreId) : String :=
  ks.join (id.value ++ ".json")

/-- The staging file of `write_new_file`. -/
def FileKeystore.tempPath (ks : FileKeystore) (id tempId : KeystoreId) : String :=
  ks.join (id.value ++ ".json.tmp." ++ tempId.value)

section Operations

variable (X : Externals) (ks : FileKeystore) (draws : Draws)

/-- The closure in `write_new_file`. -/
def stageFile (tempPath path : String) (bytes : List UInt8) : Io Unit := do
  createNew tempPath
  setOwnerReadWrite tempPath
  writeAll tempPath bytes
  syncAll
  rename tempPath path
  syncDirectory

/-- `write_new_file`. -/
def writeNewFile (id : KeystoreId) (bytes : List UInt8) (replace : Bool) : Io Unit := do
  createDirAll
  let present ← pathExists (ks.pathForId id)
  if !replace && present then Proc.throw .alreadyExists
  else do
    let tempPath := ks.tempPath id draws.tempId
    match ← (stageFile tempPath (ks.pathForId id) bytes).attempt with
    | .ok () => pure ()
    | .error error => do
      let _ ← ((removeFile tempPath).attempt : Io (Except KeystoreError Unit))
      Proc.throw error

/-- `read_parsed_by_id`. -/
def readParsedById (id : KeystoreId) : Io ParsedFile := do
  let bytes ← readCapped (ks.pathForId id) wholeFileCap
  Proc.ofExcept (parseV4 X bytes)

/-- `verify_unlocked`. -/
def verifyUnlocked (keystoreId : String) (password : List UInt8) : Io StoredSecretMeta := do
  let id ← Proc.ofExcept (KeystoreId.parse keystoreId)
  let parsed ← readParsedById X ks id
  let _ ← Proc.ofExcept (decryptSecret X parsed (some id) password)
  pure (metaFromHeader parsed.header)

/-- `decrypt_payload_unlocked`. -/
def decryptPayloadUnlocked (keystoreId : String) (password : List UInt8) : Io SecretPayload := do
  let id ← Proc.ofExcept (KeystoreId.parse keystoreId)
  let parsed ← readParsedById X ks id
  Proc.ofExcept (decryptSecret X parsed (some id) password)

/-- `parsed_meta`. -/
def parsedMeta (bytes : List UInt8) (expectedId : KeystoreId) :
    Except KeystoreError StoredSecretMeta := do
  let parsed ← parseV4 X bytes
  if parsed.header.keystoreId ≠ expectedId.value then
    .error (.corruptFile "keystore id does not match filename")
  else .ok (metaFromHeader parsed.header)

/-- `get_meta_unlocked`. -/
def getMetaUnlocked (keystoreId : String) : Io (Option StoredSecretMeta) := do
  let id ← Proc.ofExcept (KeystoreId.parse keystoreId)
  let present ← pathExists (ks.pathForId id)
  if !present then pure none
  else do
    let bytes ← readCapped (ks.pathForId id) wholeFileCap
    let found ← Proc.ofExcept (parsedMeta X bytes id)
    pure (some found)

/-- The id an import is stored under: the one given, or a new one. -/
def importId (keystoreId : Option String) : Except KeystoreError KeystoreId :=
  match keystoreId with
  | some keystoreId => KeystoreId.parse keystoreId
  | none => .ok draws.newId

/-- `import_payload_unlocked`. -/
def importPayloadUnlocked (payload : SecretPayload) (password : List UInt8)
    (keystoreId : Option String) : Io StoredSecretMeta := do
  let id ← Proc.ofExcept (importId draws keystoreId)
  let present ← pathExists (ks.pathForId id)
  if present then verifyUnlocked X ks id.value password
  else do
    let body ← Proc.ofExcept (encryptSecret X draws ks.defaultKdf payload password id)
    writeNewFile ks draws id body false
    let found ← getMetaUnlocked X ks id.value
    Proc.ofExcept (Lib.okOr found .notFound)

/-- `SecretPayload::mnemonic`. -/
def SecretPayload.ofMnemonic (phrase : String) : Except KeystoreError SecretPayload := do
  let phrase ← cleanMnemonic X phrase
  .ok (.mnemonic phrase)

/-- `SecretPayload::private_key`. -/
def SecretPayload.ofPrivateKey (bytes : List UInt8) : Except KeystoreError SecretPayload :=
  if bytes = [] ∨ bytes.length > encryptedBodyCap then .error (.invalidInput "private key")
  else .ok (.privateKey bytes)

/-- `import_mnemonic`. -/
def importMnemonic (phrase : String) (password : List UInt8) (keystoreId : Option String) :
    Io StoredSecretMeta := do
  let payload ← Proc.ofExcept (SecretPayload.ofMnemonic X phrase)
  importPayloadUnlocked X ks draws payload password keystoreId

/-- `import_private_key`. -/
def importPrivateKey (privateKey password : List UInt8) (keystoreId : Option String) :
    Io StoredSecretMeta := do
  let payload ← Proc.ofExcept (SecretPayload.ofPrivateKey privateKey)
  importPayloadUnlocked X ks draws payload password keystoreId

/-- `ReaderV3::decrypt_path`. -/
def decryptPathV3 (path : String) (password : List UInt8) : Io SecretV3 := do
  let bytes ← readCapped path wholeFileCap
  Proc.ofExcept (decryptJsonBytes X bytes password)

/-- The secret of a v3 file as a payload: a phrase is cleaned, a key checked, once more. -/
def SecretV3.toPayload : SecretV3 → Except KeystoreError SecretPayload
  | .mnemonic phrase => SecretPayload.ofMnemonic X phrase
  | .privateKey bytes => SecretPayload.ofPrivateKey bytes

/-- The end of `import_v3`: read the v3 file and import its secret. -/
def convertV3 (v3Path : String) (v3Password newPassword : List UInt8)
    (keystoreId : Option String) : Io StoredSecretMeta := do
  let secret ← decryptPathV3 X v3Path v3Password
  let payload ← Proc.ofExcept (secret.toPayload X)
  importPayloadUnlocked X ks draws payload newPassword keystoreId

/-- `import_v3`. -/
def importV3 (v3Path : String) (v3Password newPassword : List UInt8)
    (keystoreId : Option String) : Io StoredSecretMeta :=
  match keystoreId.bind fun id => (KeystoreId.parse id).toOption with
  | none => convertV3 X ks draws v3Path v3Password newPassword keystoreId
  | some parsedId => do
    let present ← pathExists (ks.pathForId parsedId)
    if !present then convertV3 X ks draws v3Path v3Password newPassword keystoreId
    else
      match ← (verifyUnlocked X ks parsedId.value newPassword).attempt with
      | .ok found => pure found
      | .error (.corruptFile _) => do
        removeFile (ks.pathForId parsedId)
        convertV3 X ks draws v3Path v3Password newPassword keystoreId
      | .error error => Proc.throw error

/-- `ReaderV3::file_id`: errors are dropped. -/
def fileIdV3 (path : String) : Io (Option String) := do
  match ← ((readCapped path wholeFileCap).attempt : Io (Except KeystoreError (List UInt8))) with
  | .ok bytes => pure ((KeystoreV3.parse X bytes).toOption.bind (·.id))
  | .error _ => pure none

/-- `is_v3_file`. -/
def isV3File (name legacyId : String) : Io Bool := do
  let lower := X.toLowercase name
  if lower = legacyId ∨ legacyId.toList <:+ lower.toList then pure true
  else do
    let id ← fileIdV3 X (ks.join name)
    pure (id.any fun id => X.toLowercase id == legacyId)

/-- The loop of `delete_v3` over the names in the directory; the result says whether a file
was removed. -/
def deleteV3Loop (legacyId : String) : List String → Bool → Io Bool
  | [], deleted => pure deleted
  | name :: names, deleted => do
    readDir
    let present ← pathExists (ks.join name)
    if !present then deleteV3Loop legacyId names deleted
    else do
      let isV3 ← isV3File X ks name legacyId
      if !isV3 then deleteV3Loop legacyId names deleted
      else do
        removeFile (ks.join name)
        deleteV3Loop legacyId names true

/-- `delete_v3`, with the names `read_dir` yields. -/
def deleteV3 (legacyId : String) (entries : List String) : Io Bool := do
  if legacyId = "" then Proc.throw (.invalidInput "legacy keystore id")
  else do
    readDir
    let deleted ← deleteV3Loop X ks (X.toLowercase legacyId) entries false
    if deleted then syncDirectory
    pure deleted

/-- `change_password`. -/
def changePassword (keystoreId : String) (oldPassword newPassword : List UInt8) :
    Io StoredSecretMeta := do
  Proc.ofExcept (validateV4Password newPassword)
  let id ← Proc.ofExcept (KeystoreId.parse keystoreId)
  let parsed ← readParsedById X ks id
  let payload ← Proc.ofExcept (decryptSecret X parsed (some id) oldPassword)
  let body ← Proc.ofExcept (encryptSecret X draws ks.defaultKdf payload newPassword id)
  writeNewFile ks draws id body true
  pure (metaFromHeader parsed.header)

/-- `delete`. -/
def delete (keystoreId : String) : Io Bool := do
  let id ← Proc.ofExcept (KeystoreId.parse keystoreId)
  match ← ((removeFile (ks.pathForId id)).attempt : Io (Except KeystoreError Unit)) with
  | .ok () => do
    syncDirectory
    pure true
  | .error .notFound => pure false
  | .error error => Proc.throw error

end Operations

/-! ## What is on the disk -/

/-- What the file of an id holds under a password. -/
def Disk.openId (X : Externals) (ks : FileKeystore) (disk : Disk) (id : KeystoreId)
    (password : List UInt8) : Except KeystoreError SecretPayload :=
  match disk (ks.pathForId id) with
  | some bytes => openFile X bytes id password
  | none => .error .notFound

/-- What the v3 file at a path holds under a password. -/
def Disk.openV3 (X : Externals) (disk : Disk) (path : String) (password : List UInt8) :
    Except KeystoreError SecretV3 :=
  match disk path with
  | some bytes => openFileV3 X bytes password
  | none => .error .notFound

/-- Different ids have different files. -/
lemma pathForId_injective (ks : FileKeystore) {id id' : KeystoreId}
    (h : ks.pathForId id = ks.pathForId id') : id = id' := by
  have hl := congrArg String.toList h
  simp only [FileKeystore.pathForId, FileKeystore.join, String.toList_append,
    List.append_assoc, List.append_cancel_left_eq, List.append_cancel_right_eq] at hl
  exact KeystoreId.ext (String.toList_inj.mp hl)

/-- A staging file is never the file of an id. -/
lemma tempPath_ne_pathForId (ks : FileKeystore) (id tempId id' : KeystoreId) :
    ks.pathForId id' ≠ ks.tempPath id tempId := by
  intro h
  have hl := congrArg (List.length ∘ String.toList) h
  simp only [FileKeystore.pathForId, FileKeystore.tempPath, FileKeystore.join,
    Function.comp_apply, String.toList_append, List.length_append, id.length_value,
    id'.length_value, tempId.length_value] at hl
  have h1 : ".json".toList.length = 5 := by decide
  have h2 : ".json.tmp.".toList.length = 10 := by decide
  omega

/-! ## Staging a file -/

section Specs

variable {X : Externals} {ks : FileKeystore} {draws : Draws} {disk : Disk}

/-- The rule for a file-system call whose failures are all treated alike. -/
lemma fsCall_all {α : Type} {f : Disk → Except KeystoreError (α × Disk)}
    {Q : α → Disk → Prop} {E : KeystoreError → Disk → Prop} {S : Disk → Prop}
    (hQ : ∀ a disk', f disk = .ok (a, disk') → Q a disk') (hE : ∀ e, E e disk) (hS : S disk) :
    (fsCall f).All disk Q E S :=
  Proc.All.call hQ (fun e _ => hE e) (fun _ => hE _) hS

/-- Between `disk` and `disk'`, the file at `path` was at most replaced by `bytes`, and of the
others only the staging file may differ. -/
structure Wrote (path temp : String) (bytes : List UInt8) (disk disk' : Disk) : Prop where
  frame : ∀ q, q ≠ path → q ≠ temp → disk' q = disk q
  target : disk' path = disk path ∨ disk' path = some bytes

lemma Wrote.refl {path temp : String} {bytes : List UInt8} (disk : Disk) :
    Wrote path temp bytes disk disk :=
  ⟨fun _ _ _ => rfl, .inl rfl⟩

/-- As long as the staging file is all that differs, the target is untouched. -/
theorem Wrote.of_frame {path temp : String} {bytes : List UInt8} {disk disk' : Disk}
    (hne : path ≠ temp) (h : ∀ q, q ≠ temp → disk' q = disk q) :
    Wrote path temp bytes disk disk' :=
  ⟨fun _ _ hq => h _ hq, .inl (h path hne)⟩

lemma Wrote.of_update {path temp : String} {bytes : List UInt8} {disk : Disk} :
    Wrote path temp bytes disk (Function.update disk path (some bytes)) :=
  ⟨fun _ hq _ => Function.update_of_ne hq _ _, .inr (Function.update_self _ _ _)⟩

/-- Removing the staging file keeps what was said about the rest. -/
lemma Wrote.remove_temp {path temp : String} {bytes : List UInt8} {disk disk' : Disk}
    (hne : path ≠ temp) (h : Wrote path temp bytes disk disk') :
    Wrote path temp bytes disk (Function.update disk' temp none) := by
  refine ⟨fun q hq ht => ?_, ?_⟩
  · rw [Function.update_of_ne ht, h.frame q hq ht]
  · rw [Function.update_of_ne hne]
    exact h.target

/-- The staged write: a run that completes has replaced the target, and one that does not has
replaced it or left it. -/
theorem stageFile_all {temp path : String} {bytes : List UInt8} (hne : path ≠ temp) :
    (stageFile temp path bytes).All disk
      (fun _ disk' => disk temp = none ∧ disk' = Function.update disk path (some bytes))
      (fun _ disk' => Wrote path temp bytes disk disk') (Wrote path temp bytes disk) := by
  refine Proc.All.bind (fsCall_all (fun _ disk₁ h₁ => ?_) (fun _ => .refl _) (.refl _))
  obtain ⟨hfresh, rfl⟩ : disk temp = none ∧ disk₁ = Function.update disk temp (some []) := by
    split at h₁ <;> simp_all
  have hframe (content : List UInt8) (q : String) (hq : q ≠ temp) :
      Function.update disk temp (some content) q = disk q := Function.update_of_ne hq _ _
  have hw (content : List UInt8) :
      Wrote path temp bytes disk (Function.update disk temp (some content)) :=
    .of_frame hne (hframe content)
  refine Proc.All.bind (fsCall_all (fun _ disk₂ h₂ => ?_) (fun _ => hw _) (hw _))
  obtain rfl : Function.update disk temp (some []) = disk₂ := by
    simpa using h₂
  refine Proc.All.bind (fsCall_all (fun _ disk₃ h₃ => ?_) (fun _ => hw _) (hw _))
  obtain rfl : Function.update disk temp (some bytes) = disk₃ := by
    simpa using h₃
  refine Proc.All.bind (fsCall_all (fun _ disk₄ h₄ => ?_) (fun _ => hw _) (hw _))
  obtain rfl : Function.update disk temp (some bytes) = disk₄ := by
    simpa using h₄
  refine Proc.All.bind (fsCall_all (fun _ disk₅ h₅ => ?_) (fun _ => hw _) (hw _))
  have hmoved : disk₅ = Function.update disk path (some bytes) := by
    have h₅' : disk₅ = Function.update (Function.update (Function.update disk temp (some bytes))
        path (some bytes)) temp none := by
      simpa [eq_comm] using h₅
    rw [h₅', Function.update_comm hne, Function.update_idem, ← hfresh, Function.update_eq_self]
  subst hmoved
  refine fsCall_all (fun _ disk₆ h₆ => ?_) (fun _ => .of_update) .of_update
  exact ⟨hfresh, by simpa [eq_comm] using h₆⟩

/-- `write_new_file`: on success the target holds the bytes, and without `replace` it did not
exist before. -/
theorem writeNewFile_all (id : KeystoreId) (bytes : List UInt8) (replace : Bool) :
    (writeNewFile ks draws id bytes replace).All disk
      (fun _ disk' => disk (ks.tempPath id draws.tempId) = none ∧
        disk' = Function.update disk (ks.pathForId id) (some bytes))
      (fun _ => Wrote (ks.pathForId id) (ks.tempPath id draws.tempId) bytes disk)
      (Wrote (ks.pathForId id) (ks.tempPath id draws.tempId) bytes disk) := by
  have hne := tempPath_ne_pathForId ks id draws.tempId id
  refine Proc.All.bind (fsCall_all (fun _ disk₁ h₁ => ?_) (fun _ => .refl _) (.refl _))
  obtain rfl : disk = disk₁ := by simpa using h₁
  refine Proc.All.bind (Proc.All.read ?_)
  split
  · exact Proc.All.throw (.refl _)
  · refine Proc.All.bind (Proc.All.attempt ((stageFile_all hne).mono ?_ ?_ fun _ hw => hw))
    · rintro ⟨⟩ disk' h
      exact Proc.All.pure h
    · intro error disk' hw
      refine Proc.All.bind (Proc.All.attempt (fsCall_all (fun _ disk'' h => ?_) (fun _ => ?_) hw))
      · have h' : disk'' = Function.update disk' (ks.tempPath id draws.tempId) none := by
          split at h <;> simp_all
        exact Proc.All.throw (h' ▸ hw.remove_temp hne)
      · exact Proc.All.throw hw

/-! ## Reading -/

/-- `read_capped` changes nothing; a corrupt-file error says the file is too large. -/
theorem readCapped_all (path : String) (cap : ℕ) :
    (readCapped path cap).All disk
      (fun bytes disk' => disk' = disk ∧ disk path = some bytes ∧ bytes.length ≤ cap)
      (fun e disk' => disk' = disk ∧
        (e.IsCorrupt → ∃ bytes, disk path = some bytes ∧ cap < bytes.length))
      (· = disk) := by
  refine Proc.All.call (fun bytes disk' h => ?_) (fun e h => ⟨rfl, ?_⟩) (fun message => ⟨rfl, ?_⟩)
    rfl
  · split at h
    · split at h <;> simp_all
    · cases h
  · rintro ⟨message, rfl⟩
    split at h
    · rename_i bytes hbytes
      split at h
      · exact ⟨bytes, hbytes, ‹_›⟩
      · cases h
    · cases h
  · rintro ⟨_, hc⟩
    cases hc

/-- The file of an id that is read and parsed opens as the parsed file does. -/
theorem openId_of_parsed {id : KeystoreId} {bytes : List UInt8} {parsed : ParsedFile}
    (hbytes : disk (ks.pathForId id) = some bytes) (hcap : bytes.length ≤ wholeFileCap)
    (hparsed : parseV4 X bytes = .ok parsed) (password : List UInt8) :
    disk.openId X ks id password = decryptSecret X parsed (some id) password := by
  simp only [Disk.openId, hbytes, openFile, if_neg (Nat.not_lt.mpr hcap), hparsed, Lib.ok_bind]

/-- `read_parsed_by_id` changes nothing; when it reports a corrupt file, the file does not
open. -/
theorem readParsedById_all (id : KeystoreId) :
    (readParsedById X ks id).All disk
      (fun parsed disk' => disk' = disk ∧ ∃ bytes, disk (ks.pathForId id) = some bytes ∧
        bytes.length ≤ wholeFileCap ∧ parseV4 X bytes = .ok parsed)
      (fun e disk' => disk' = disk ∧
        (e.IsCorrupt → ∃ e', e'.IsCorrupt ∧ ∀ password, disk.openId X ks id password = .error e'))
      (· = disk) := by
  refine Proc.All.bind ((readCapped_all _ _).mono ?_ ?_ fun _ h => h)
  · rintro bytes _ ⟨rfl, hbytes, hcap⟩
    refine Proc.All.ofExcept (fun parsed hparsed => ⟨rfl, bytes, hbytes, hcap, hparsed⟩)
      fun e he => ⟨rfl, fun hc => ⟨e, hc, fun password => ?_⟩⟩
    simp only [Disk.openId, hbytes, openFile, if_neg (Nat.not_lt.mpr hcap), he]
    rfl
  · rintro e _ ⟨rfl, h⟩
    refine ⟨rfl, fun hc => ?_⟩
    obtain ⟨bytes, hbytes, hcap⟩ := h hc
    refine ⟨_, ⟨"file too large", rfl⟩, fun password => ?_⟩
    simp only [Disk.openId, hbytes, openFile, if_pos hcap]

/-- `verify` changes nothing: it succeeds only on a file that opens, and reports corruption
only of a file that does not. -/
theorem verifyUnlocked_all (id : KeystoreId) (password : List UInt8) :
    (verifyUnlocked X ks id.value password).All disk
      (fun _ disk' => disk' = disk ∧ ∃ payload, disk.openId X ks id password = .ok payload)
      (fun e disk' => disk' = disk ∧
        (e.IsCorrupt → ∃ e', e'.IsCorrupt ∧ disk.openId X ks id password = .error e'))
      (· = disk) := by
  rw [verifyUnlocked, KeystoreId.parse_value]
  refine Proc.All.bind (Proc.All.ofExcept ?_ (fun e h => by cases h))
  rintro _ ⟨⟩
  refine Proc.All.bind ((readParsedById_all id).mono ?_ ?_ fun _ h => h)
  · rintro parsed _ ⟨rfl, bytes, hbytes, hcap, hparsed⟩
    have hopen := openId_of_parsed hbytes hcap hparsed password
    refine Proc.All.bind (Proc.All.ofExcept (fun payload h => ?_) fun e h => ?_)
    · exact Proc.All.pure ⟨rfl, payload, hopen.trans h⟩
    · exact ⟨rfl, fun hc => ⟨e, hc, hopen.trans h⟩⟩
  · rintro e _ ⟨rfl, h⟩
    refine ⟨rfl, fun hc => ?_⟩
    obtain ⟨e', he', hopen⟩ := h hc
    exact ⟨e', he', hopen password⟩

/-- `decrypt` changes nothing. -/
lemma decryptPayloadUnlocked_readOnly (keystoreId : String) (password : List UInt8) :
    (decryptPayloadUnlocked X ks keystoreId password).ReadOnly := by
  apply Proc.ReadOnly.bind (.ofExcept _)
  intro id
  apply Proc.ReadOnly.bind
  · exact fun disk => (readParsedById_all id).mono (fun _ _ h => h.1) (fun _ _ h => h.1) fun _ h => h
  · exact fun parsed => .ofExcept _

/-- `get_meta` changes nothing. -/
lemma getMetaUnlocked_readOnly (keystoreId : String) :
    (getMetaUnlocked X ks keystoreId).ReadOnly := by
  intro disk
  refine Proc.All.bind (Proc.All.ofExcept (fun id _ => ?_) fun _ _ => rfl)
  refine Proc.All.bind (Proc.All.read ?_)
  split
  · exact Proc.All.pure rfl
  · refine Proc.All.bind ((readCapped_all _ _).mono ?_ (fun _ _ h => h.1) fun _ h => h)
    rintro bytes _ ⟨rfl, -⟩
    exact Proc.All.bind (Proc.All.ofExcept (fun _ _ => Proc.All.pure rfl) fun _ _ => rfl)

/-! ## Importing -/

/-- The disk after an import of `payload` that succeeded: the file was there and opens, or it
is new and holds the sealed payload. -/
def Imported (X : Externals) (ks : FileKeystore) (draws : Draws) (payload : SecretPayload)
    (password : List UInt8) (id : KeystoreId) (disk disk' : Disk) : Prop :=
  (disk' = disk ∧ ∃ held, disk.openId X ks id password = .ok held) ∨
    (disk (ks.pathForId id) = none ∧ ∃ bytes,
      encryptSecret X draws ks.defaultKdf payload password id = .ok bytes ∧
        disk' = Function.update disk (ks.pathForId id) (some bytes))

/-- The disk after an import that did not return: unchanged, or the file is new. -/
def Broken (ks : FileKeystore) (draws : Draws) (id : KeystoreId) (disk disk' : Disk) : Prop :=
  disk' = disk ∨ (disk (ks.pathForId id) = none ∧
    ∃ bytes, Wrote (ks.pathForId id) (ks.tempPath id draws.tempId) bytes disk disk')

/-- What `import_payload_unlocked` can do. -/
lemma importPayloadUnlocked_all (payload : SecretPayload) (password : List UInt8)
    (keystoreId : Option String) :
    (importPayloadUnlocked X ks draws payload password keystoreId).All disk
      (fun _ disk' => ∃ id, importId draws keystoreId = .ok id ∧
        Imported X ks draws payload password id disk disk')
      (fun _ disk' => disk' = disk ∨ ∃ id, importId draws keystoreId = .ok id ∧
        Broken ks draws id disk disk')
      (fun disk' => disk' = disk ∨ ∃ id, importId draws keystoreId = .ok id ∧
        Broken ks draws id disk disk') := by
  refine Proc.All.bind (Proc.All.ofExcept (fun id hid => ?_) fun _ _ => .inl rfl)
  refine Proc.All.bind (Proc.All.read ?_)
  split
  · refine (verifyUnlocked_all id password).mono ?_ (fun _ _ h => .inl h.1) fun _ h => .inl h
    rintro _ disk' ⟨h, hopen⟩
    exact ⟨id, hid, .inl ⟨h, hopen⟩⟩
  · rename_i habsent
    have habsent : disk (ks.pathForId id) = none := by simpa using habsent
    refine Proc.All.bind (Proc.All.ofExcept (fun bytes hbytes => ?_) fun _ _ => .inl rfl)
    refine Proc.All.bind ((writeNewFile_all id bytes false).mono ?_ ?_ ?_)
    · rintro _ _ ⟨-, rfl⟩
      refine Proc.All.bind ((getMetaUnlocked_readOnly id.value _).mono ?_ ?_ ?_)
      · rintro found _ rfl
        exact Proc.All.ofExcept (fun _ _ => ⟨id, hid, .inr ⟨habsent, bytes, hbytes, rfl⟩⟩)
          fun _ _ => .inr ⟨id, hid, .inr ⟨habsent, bytes, .of_update⟩⟩
      · rintro e _ rfl
        exact .inr ⟨id, hid, .inr ⟨habsent, bytes, .of_update⟩⟩
      · rintro _ rfl
        exact .inr ⟨id, hid, .inr ⟨habsent, bytes, .of_update⟩⟩
    · exact fun _ _ hw => .inr ⟨id, hid, .inr ⟨habsent, bytes, hw⟩⟩
    · exact fun _ hw => .inr ⟨id, hid, .inr ⟨habsent, bytes, hw⟩⟩

/-- `ReaderV3::decrypt_path` changes nothing and gives what the v3 file holds. -/
theorem decryptPathV3_all (path : String) (password : List UInt8) :
    (decryptPathV3 X path password).All disk
      (fun secret disk' => disk' = disk ∧ disk.openV3 X path password = .ok secret)
      (fun _ => (· = disk)) (· = disk) := by
  refine Proc.All.bind ((readCapped_all _ _).mono ?_ (fun _ _ h => h.1) fun _ h => h)
  rintro bytes _ ⟨rfl, hbytes, hcap⟩
  refine Proc.All.ofExcept (fun secret h => ⟨rfl, ?_⟩) fun _ _ => rfl
  simp only [Disk.openV3, hbytes, openFileV3, if_neg (Nat.not_lt.mpr hcap), h]

/-- What the conversion of a v3 file can do. -/
lemma convertV3_all (v3Path : String) (v3Password newPassword : List UInt8)
    (keystoreId : Option String) :
    (convertV3 X ks draws v3Path v3Password newPassword keystoreId).All disk
      (fun _ disk' => ∃ id secret payload, importId draws keystoreId = .ok id ∧
        disk.openV3 X v3Path v3Password = .ok secret ∧ secret.toPayload X = .ok payload ∧
        Imported X ks draws payload newPassword id disk disk')
      (fun _ disk' => disk' = disk ∨ ∃ id, importId draws keystoreId = .ok id ∧
        Broken ks draws id disk disk')
      (fun disk' => disk' = disk ∨ ∃ id, importId draws keystoreId = .ok id ∧
        Broken ks draws id disk disk') := by
  refine Proc.All.bind ((decryptPathV3_all _ _).mono ?_ (fun _ _ h => .inl h) fun _ h => .inl h)
  rintro secret _ ⟨rfl, hsecret⟩
  refine Proc.All.bind (Proc.All.ofExcept (fun payload hpayload => ?_) fun _ _ => .inl rfl)
  refine (importPayloadUnlocked_all payload newPassword keystoreId).mono ?_ (fun _ _ h => h)
    fun _ h => h
  rintro _ disk' ⟨id, hid, h⟩
  exact ⟨id, secret, payload, hid, hsecret, hpayload, h⟩

/-- What `import_v3` does before it converts: nothing, or it removes the file of the id that
it found corrupt. -/
def Cleared (X : Externals) (ks : FileKeystore) (password : List UInt8) (id : KeystoreId)
    (disk disk₁ : Disk) : Prop :=
  disk₁ = disk ∨ (disk₁ = Function.update disk (ks.pathForId id) none ∧
    ∃ e, e.IsCorrupt ∧ disk.openId X ks id password = .error e)

/-- The disk after an `import_v3` that succeeded: the file was there and opens, or it holds
the payload of the v3 file. -/
def ImportedV3 (X : Externals) (ks : FileKeystore) (draws : Draws) (v3Path : String)
    (v3Password newPassword : List UInt8) (id : KeystoreId) (disk disk' : Disk) : Prop :=
  (disk' = disk ∧ ∃ held, disk.openId X ks id newPassword = .ok held) ∨
    ∃ disk₁ secret payload, Cleared X ks newPassword id disk disk₁ ∧
      disk₁.openV3 X v3Path v3Password = .ok secret ∧ secret.toPayload X = .ok payload ∧
      Imported X ks draws payload newPassword id disk₁ disk'

/-- The disk after an `import_v3` that did not return. -/
def BrokenV3 (X : Externals) (ks : FileKeystore) (draws : Draws) (newPassword : List UInt8)
    (id : KeystoreId) (disk disk' : Disk) : Prop :=
  ∃ disk₁, Cleared X ks newPassword id disk disk₁ ∧ Broken ks draws id disk₁ disk'

/-- The conversion, once the file of the id is out of the way. -/
lemma convertV3_cleared {v3Path : String} {v3Password newPassword : List UInt8}
    {keystoreId : Option String} {id : KeystoreId} {disk₁ : Disk}
    (hid : importId draws keystoreId = .ok id) (hc : Cleared X ks newPassword id disk disk₁) :
    (convertV3 X ks draws v3Path v3Password newPassword keystoreId).All disk₁
      (fun _ disk' => ∃ id, importId draws keystoreId = .ok id ∧
        ImportedV3 X ks draws v3Path v3Password newPassword id disk disk')
      (fun _ disk' => disk' = disk ∨ ∃ id, importId draws keystoreId = .ok id ∧
        BrokenV3 X ks draws newPassword id disk disk')
      (fun disk' => disk' = disk ∨ ∃ id, importId draws keystoreId = .ok id ∧
        BrokenV3 X ks draws newPassword id disk disk') := by
  have hbroken {disk' : Disk} (h : disk' = disk₁ ∨
      ∃ id, importId draws keystoreId = .ok id ∧ Broken ks draws id disk₁ disk') :
      disk' = disk ∨ ∃ id, importId draws keystoreId = .ok id ∧
        BrokenV3 X ks draws newPassword id disk disk' := by
    rcases h with h | ⟨id', hid', h⟩
    · exact .inr ⟨id, hid, disk₁, hc, .inl h⟩
    · obtain rfl : id = id' := by simpa [hid] using hid'
      exact .inr ⟨id, hid, disk₁, hc, h⟩
  refine (convertV3_all v3Path v3Password newPassword keystoreId).mono ?_ (fun _ _ => hbroken)
    fun _ => hbroken
  rintro _ disk' ⟨id', secret, payload, hid', hs, hp, h⟩
  obtain rfl : id = id' := by simpa [hid] using hid'
  exact ⟨id, hid, .inr ⟨disk₁, secret, payload, hc, hs, hp, h⟩⟩

lemma importId_eq_ok_of_bind {keystoreId : Option String} {id : KeystoreId}
    (h : (keystoreId.bind fun id => (KeystoreId.parse id).toOption) = some id) :
    importId draws keystoreId = .ok id := by
  cases keystoreId with
  | none => cases h
  | some text =>
    rw [Option.bind_some] at h
    rw [importId]
    cases hp : KeystoreId.parse text with
    | error e => simp [hp, Except.toOption] at h
    | ok id' => simpa [hp, Except.toOption] using h

/-- What `import_v3` can do. -/
lemma importV3_all (v3Path : String) (v3Password newPassword : List UInt8)
    (keystoreId : Option String) :
    (importV3 X ks draws v3Path v3Password newPassword keystoreId).All disk
      (fun _ disk' => ∃ id, importId draws keystoreId = .ok id ∧
        ImportedV3 X ks draws v3Path v3Password newPassword id disk disk')
      (fun _ disk' => disk' = disk ∨ ∃ id, importId draws keystoreId = .ok id ∧
        BrokenV3 X ks draws newPassword id disk disk')
      (fun disk' => disk' = disk ∨ ∃ id, importId draws keystoreId = .ok id ∧
        BrokenV3 X ks draws newPassword id disk disk') := by
  rw [importV3]
  split
  · -- No id, or one that does not parse: the conversion reports it.
    cases hid : importId draws keystoreId with
    | ok id =>
      rw [← hid]
      exact convertV3_cleared hid (.inl rfl)
    | error e =>
      refine (convertV3_all v3Path v3Password newPassword keystoreId).mono ?_ ?_ ?_
      · rintro _ _ ⟨id, -, -, hid', -⟩
        simp [hid] at hid'
      · rintro _ _ (h | ⟨id, hid', -⟩)
        · exact .inl h
        · simp [hid] at hid'
      · rintro _ (h | ⟨id, hid', -⟩)
        · exact .inl h
        · simp [hid] at hid'
  · rename_i id hid
    replace hid : importId draws keystoreId = .ok id := importId_eq_ok_of_bind hid
    refine Proc.All.bind (Proc.All.read ?_)
    split
    · exact convertV3_cleared hid (.inl rfl)
    · refine Proc.All.bind (Proc.All.attempt ((verifyUnlocked_all id newPassword).mono ?_ ?_ ?_))
      · rintro found disk' h
        exact Proc.All.pure ⟨id, hid, .inl h⟩
      · rintro e _ ⟨rfl, hcorrupt⟩
        split
        · rename_i h
          cases h
        · rename_i message h
          obtain ⟨e', he', hopen⟩ := hcorrupt (by cases h; exact ⟨_, rfl⟩)
          refine Proc.All.bind (fsCall_all (fun _ disk₁ h₁ => ?_) (fun _ => .inl rfl) (.inl rfl))
          refine convertV3_cleared hid (.inr ⟨?_, e', he', hopen⟩)
          split at h₁ <;> simp_all
        · exact Proc.All.throw (.inl rfl)
      · exact fun _ h => .inl h

/-! ## Changing the password and deleting -/

/-- What `change_password` can do. -/
lemma changePassword_all (keystoreId : String) (oldPassword newPassword : List UInt8) :
    (changePassword X ks draws keystoreId oldPassword newPassword).All disk
      (fun _ disk' => ∃ id payload bytes, KeystoreId.parse keystoreId = .ok id ∧
        disk.openId X ks id oldPassword = .ok payload ∧
        encryptSecret X draws ks.defaultKdf payload newPassword id = .ok bytes ∧
        disk' = Function.update disk (ks.pathForId id) (some bytes))
      (fun _ disk' => disk' = disk ∨ ∃ id payload bytes, KeystoreId.parse keystoreId = .ok id ∧
        disk.openId X ks id oldPassword = .ok payload ∧
        encryptSecret X draws ks.defaultKdf payload newPassword id = .ok bytes ∧
        Wrote (ks.pathForId id) (ks.tempPath id draws.tempId) bytes disk disk')
      (fun disk' => disk' = disk ∨ ∃ id payload bytes, KeystoreId.parse keystoreId = .ok id ∧
        disk.openId X ks id oldPassword = .ok payload ∧
        encryptSecret X draws ks.defaultKdf payload newPassword id = .ok bytes ∧
        Wrote (ks.pathForId id) (ks.tempPath id draws.tempId) bytes disk disk') := by
  refine Proc.All.bind (Proc.All.ofExcept (fun _ _ => ?_) fun _ _ => .inl rfl)
  refine Proc.All.bind (Proc.All.ofExcept (fun id hid => ?_) fun _ _ => .inl rfl)
  refine Proc.All.bind ((readParsedById_all id).mono ?_ (fun _ _ h => .inl h.1) fun _ h => .inl h)
  rintro parsed _ ⟨rfl, content, hcontent, hcap, hparsed⟩
  refine Proc.All.bind (Proc.All.ofExcept (fun payload hpayload => ?_) fun _ _ => .inl rfl)
  have hopen := (openId_of_parsed hcontent hcap hparsed oldPassword).trans hpayload
  refine Proc.All.bind (Proc.All.ofExcept (fun bytes hbytes => ?_) fun _ _ => .inl rfl)
  refine Proc.All.bind ((writeNewFile_all id bytes true).mono ?_ ?_ ?_)
  · rintro _ _ ⟨-, rfl⟩
    exact Proc.All.pure ⟨id, payload, bytes, hid, hopen, hbytes, rfl⟩
  · exact fun _ _ hw => .inr ⟨id, payload, bytes, hid, hopen, hbytes, hw⟩
  · exact fun _ hw => .inr ⟨id, payload, bytes, hid, hopen, hbytes, hw⟩

/-- What `delete` can do. -/
lemma delete_all (id : KeystoreId) :
    (delete ks id.value).All disk
      (fun _ disk' => disk' = disk ∨ disk' = Function.update disk (ks.pathForId id) none)
      (fun _ disk' => disk' = disk ∨ disk' = Function.update disk (ks.pathForId id) none)
      (fun disk' => disk' = disk ∨ disk' = Function.update disk (ks.pathForId id) none) := by
  rw [delete, KeystoreId.parse_value]
  refine Proc.All.bind (Proc.All.ofExcept ?_ (fun e h => by cases h))
  rintro _ ⟨⟩
  refine Proc.All.bind (Proc.All.attempt (fsCall_all (fun _ disk₁ h₁ => ?_) (fun e => ?_)
    (.inl rfl)))
  · have hr : disk₁ = Function.update disk (ks.pathForId id) none := by
      split at h₁ <;> simp_all
    refine Proc.All.bind (fsCall_all (fun _ disk₂ h₂ => ?_) (fun _ => .inr hr) (.inr hr))
    obtain rfl : disk₁ = disk₂ := by simpa using h₂
    exact Proc.All.pure (.inr hr)
  · split
    · exact Proc.All.bind (fsCall_all (fun _ disk₂ h₂ => by
        obtain rfl : disk = disk₂ := by simpa using h₂
        exact Proc.All.pure (.inl rfl)) (fun _ => .inl rfl) (.inl rfl))
    · exact Proc.All.pure (.inl rfl)
    · exact Proc.All.throw (.inl rfl)

/-- A file that `is_v3_file` takes for a v3 file of the legacy id: by its name, or by the id
written in it. -/
def MatchesV3 (X : Externals) (ks : FileKeystore) (disk : Disk) (legacyId name : String) : Prop :=
  X.toLowercase name = legacyId ∨ legacyId.toList <:+ (X.toLowercase name).toList ∨
    ∃ bytes keystore id, disk (ks.join name) = some bytes ∧
      KeystoreV3.parse X bytes = .ok keystore ∧ keystore.id = some id ∧ X.toLowercase id = legacyId

/-- Only files that match the legacy id are gone. -/
def DeletedV3 (X : Externals) (ks : FileKeystore) (legacyId : String) (disk disk' : Disk) : Prop :=
  ∀ path, disk' path = disk path ∨
    (disk' path = none ∧ ∃ name, path = ks.join name ∧ MatchesV3 X ks disk legacyId name)

/-- `is_v3_file` changes nothing and says yes only to matching files. -/
lemma isV3File_all (name legacyId : String) :
    (isV3File X ks name legacyId).All disk
      (fun isV3 disk' => disk' = disk ∧ (isV3 = true → MatchesV3 X ks disk legacyId name))
      (fun _ => (· = disk)) (· = disk) := by
  rw [isV3File]
  split
  · rename_i h
    exact Proc.All.pure ⟨rfl, fun _ => h.elim .inl fun h => .inr (.inl h)⟩
  · refine Proc.All.bind (Proc.All.bind (Proc.All.attempt ((readCapped_all _ _).mono ?_ ?_ ?_)))
    · rintro bytes _ ⟨rfl, hbytes, -⟩
      refine Proc.All.pure (Proc.All.pure ⟨rfl, fun h => .inr (.inr ?_)⟩)
      cases hk : KeystoreV3.parse X bytes with
      | error e => simp [hk, Except.toOption] at h
      | ok keystore =>
        simp only [hk, Except.toOption, Option.bind_some, Option.any_eq_true, beq_iff_eq] at h
        obtain ⟨id, hid, hlegacy⟩ := h
        exact ⟨bytes, keystore, id, hbytes, hk, hid, hlegacy⟩
    · rintro e _ ⟨rfl, -⟩
      exact Proc.All.pure (Proc.All.pure ⟨rfl, fun h => by cases h⟩)
    · exact fun _ h => h

/-- The loop of `delete_v3`: what it removed before an iteration, and what it removes in it,
matches the legacy id. -/
theorem deleteV3Loop_all {legacyId : String} (disk₀ : Disk) (names : List String)
    (deleted : Bool) (h : DeletedV3 X ks legacyId disk₀ disk) :
    (deleteV3Loop X ks legacyId names deleted).All disk
      (fun _ => DeletedV3 X ks legacyId disk₀) (fun _ => DeletedV3 X ks legacyId disk₀)
      (DeletedV3 X ks legacyId disk₀) := by
  induction names generalizing disk deleted with
  | nil => exact Proc.All.pure h
  | cons name names ih =>
    refine Proc.All.bind (fsCall_all (fun _ disk₁ h₁ => ?_) (fun _ => h) h)
    obtain rfl : disk = disk₁ := by simpa using h₁
    refine Proc.All.bind (Proc.All.read ?_)
    split
    · exact ih deleted h
    · rename_i hpresent
      refine Proc.All.bind ((isV3File_all name legacyId).mono ?_ ?_ ?_)
      · rintro isV3 disk' ⟨hsame, hmatch⟩
        rw [hsame]
        split
        · exact ih deleted h
        · rename_i hyes
          refine Proc.All.bind (fsCall_all (fun _ disk₁ h₁ => ?_) (fun _ => h) h)
          refine ih true fun path => ?_
          obtain rfl : disk₁ = Function.update disk (ks.join name) none := by
            split at h₁ <;> simp_all
          by_cases hpath : path = ks.join name
          · -- The file was there, so it is still as the loop found it.
            have hkept : disk (ks.join name) = disk₀ (ks.join name) := by
              rcases h (ks.join name) with hs | ⟨hs, -⟩
              · exact hs
              · simp [hs] at hpresent
            refine .inr ⟨by rw [hpath, Function.update_self], name, hpath, ?_⟩
            rcases hmatch (by simpa using hyes) with hm | hm | ⟨bytes, keystore, id, hb, hm⟩
            · exact .inl hm
            · exact .inr (.inl hm)
            · exact .inr (.inr ⟨bytes, keystore, id, hkept ▸ hb, hm⟩)
          · rw [Function.update_of_ne hpath]
            exact h path
      · rintro _ _ rfl
        exact h
      · rintro _ rfl
        exact h

/-- What `delete_v3` can do. -/
lemma deleteV3_all (legacyId : String) (entries : List String) :
    (deleteV3 X ks legacyId entries).All disk
      (fun _ => DeletedV3 X ks (X.toLowercase legacyId) disk)
      (fun _ => DeletedV3 X ks (X.toLowercase legacyId) disk)
      (DeletedV3 X ks (X.toLowercase legacyId) disk) := by
  have hrefl : DeletedV3 X ks (X.toLowercase legacyId) disk disk := fun _ => .inl rfl
  rw [deleteV3]
  split
  · exact Proc.All.throw hrefl
  · refine Proc.All.bind (fsCall_all (fun _ disk₁ h₁ => ?_) (fun _ => hrefl) hrefl)
    obtain rfl : disk = disk₁ := by simpa using h₁
    refine Proc.All.bind ((deleteV3Loop_all disk entries false hrefl).mono ?_ (fun _ _ h => h)
      fun _ h => h)
    intro deleted disk' h
    split
    · refine Proc.All.bind (fsCall_all (fun _ disk₂ h₂ => ?_) (fun _ => h) h)
      obtain rfl : disk' = disk₂ := by simpa using h₂
      exact Proc.All.pure h
    · exact Proc.All.pure h

/-! ## Decrypting -/

/-- An undisturbed decrypt returns what the file of the id holds. -/
lemma decryptPayloadUnlocked_calm {id : KeystoreId} {password : List UInt8}
    {payload : SecretPayload} (h : disk.openId X ks id password = .ok payload) :
    (decryptPayloadUnlocked X ks id.value password).Calm disk (.ok payload) disk := by
  rw [Disk.openId] at h
  split at h
  · rename_i bytes hbytes
    obtain ⟨hcap, parsed, hparsed, hdec⟩ := openFile_eq_ok_iff.mp h
    refine Proc.Calm.bind (Proc.Calm.ofExcept (KeystoreId.parse_value id)) ?_
    refine Proc.Calm.bind (Proc.Calm.bind (Proc.Calm.call ?_) (Proc.Calm.ofExcept hparsed))
      (Proc.Calm.ofExcept hdec)
    simp only [hbytes, if_neg (Nat.not_lt.mpr hcap)]
  · cases h

end Specs

end GemCore.Keystore
