import GemCore.Keystore.FileKeystore
import GemCore.Keystore.Reference

/-!
# What an import leaves behind

Three ways lead a secret into the keystore: a phrase, a private key, and a v3 file. All end
in `import_payload_unlocked`, which writes a new file or, when the id has one already,
checks that the password opens it and leaves it alone. `import_v3` looks at the existing file
first, and takes a corrupt one out of the way.

## Main definitions

* `ImportSource` — a phrase, a key, or a v3 file.
* `importSecret` — the import of a source under an id.

## Main results

* `importSecret_decrypts` — after a successful import the id decrypts under the password: to the
  secret imported, or to what its file held if that opened already.
* `importSecret_keeps_existing` — the second case does occur.
-/

namespace GemCore.Keystore

open Lib

/-- Where an imported secret comes from. -/
inductive ImportSource where
  | mnemonic (phrase : String)
  | privateKey (bytes : List UInt8)
  | v3 (path : String) (password : List UInt8)

/-- `import_mnemonic`, `import_private_key` and `import_v3`, by source. -/
def importSecret (X : Externals) (ks : FileKeystore) (draws : Draws) (source : ImportSource)
    (password : List UInt8) (keystoreId : Option String) : Io StoredSecretMeta :=
  match source with
  | .mnemonic phrase => importMnemonic X ks draws phrase password keystoreId
  | .privateKey bytes => importPrivateKey X ks draws bytes password keystoreId
  | .v3 path v3Password => importV3 X ks draws path v3Password password keystoreId

/-- The secret of a source: the phrase as cleaned, the key, or what the v3 file holds. -/
def ImportSource.payload (X : Externals) (disk : Disk) :
    ImportSource → Except KeystoreError SecretPayload
  | .mnemonic phrase => SecretPayload.ofMnemonic X phrase
  | .privateKey bytes => SecretPayload.ofPrivateKey bytes
  | .v3 path password => do
    let secret ← disk.openV3 X path password
    secret.toPayload X

section

variable {X : Externals} {ks : FileKeystore} {draws : Draws} {disk disk' : Disk}
  {password : List UInt8} {id : KeystoreId}

/-- A file that was just sealed opens to its payload. -/
lemma openId_update (hX : X.Lawful) {payload : SecretPayload} {bytes : List UInt8}
    (h : encryptSecret X draws ks.defaultKdf payload password id = .ok bytes) :
    Disk.openId X ks (Function.update disk (ks.pathForId id) (some bytes)) id password =
      .ok payload := by
  simp only [Disk.openId, Function.update_self]
  exact (openFile_encryptSecret hX h).1

/-- After a successful import of a payload, the id opens to it or to what it held before. -/
theorem Imported.openId (hX : X.Lawful) {payload : SecretPayload}
    (h : Imported X ks draws payload password id disk disk') :
    (disk' = disk ∧ ∃ held, disk.openId X ks id password = .ok held) ∨
      (disk (ks.pathForId id) = none ∧ disk'.openId X ks id password = .ok payload) := by
  rcases h with h | ⟨habsent, bytes, hbytes, rfl⟩
  · exact .inl h
  · exact .inr ⟨habsent, openId_update hX hbytes⟩

/-- Taking a corrupt file away leaves no file of the id. -/
lemma Cleared.opens_nothing {disk₁ : Disk} (h : Cleared X ks password id disk disk₁)
    {held : SecretPayload} (hopen : disk₁.openId X ks id password = .ok held) : disk₁ = disk := by
  rcases h with h | ⟨rfl, -⟩
  · exact h
  · simp [Disk.openId] at hopen

/-- When the file of the id did not open, what `import_v3` looked at the v3 file with is the
disk it was given, up to the file of the id. -/
theorem Cleared.openV3 {disk₁ : Disk} (h : Cleared X ks password id disk disk₁) {path : String}
    {v3Password : List UInt8} {secret : SecretV3}
    (hopen : disk₁.openV3 X path v3Password = .ok secret) :
    disk.openV3 X path v3Password = .ok secret := by
  rcases h with rfl | ⟨rfl, -⟩
  · exact hopen
  · by_cases hp : path = ks.pathForId id
    · simp [Disk.openV3, hp] at hopen
    · simpa [Disk.openV3, hp] using hopen

/-- What a successful import of a private key has done. -/
lemma importPrivateKey_all (privateKey password : List UInt8) (keystoreId : Option String) :
    (importPrivateKey X ks draws privateKey password keystoreId).All disk
      (fun _ disk' => ∃ id payload, importId draws keystoreId = .ok id ∧
        Imported X ks draws payload password id disk disk')
      (fun _ _ => True) (fun _ => True) := by
  apply Proc.All.bind
  refine Proc.All.ofExcept (fun payload _ => ?_) fun _ _ => trivial
  refine (importPayloadUnlocked_all payload password keystoreId).mono ?_ (fun _ _ _ => trivial)
    fun _ _ => trivial
  rintro _ disk' ⟨id, hid, h⟩
  exact ⟨id, payload, hid, h⟩

/-- What a successful import has done, whatever the source. -/
lemma importSecret_all (hX : X.Lawful) (source : ImportSource) :
    (importSecret X ks draws source password (some id.value)).All disk
      (fun _ disk' => (disk' = disk ∧ ∃ held, disk.openId X ks id password = .ok held) ∨
        ((∀ held, disk.openId X ks id password ≠ .ok held) ∧
          ∃ payload, source.payload X disk = .ok payload ∧
            disk'.openId X ks id password = .ok payload))
      (fun _ _ => True) (fun _ => True) := by
  have hid : importId draws (some id.value) = .ok id := KeystoreId.parse_value id
  have hpayload (payload : SecretPayload) (hsource : source.payload X disk = .ok payload) :
      (importPayloadUnlocked X ks draws payload password (some id.value)).All disk
        (fun _ disk' => (disk' = disk ∧ ∃ held, disk.openId X ks id password = .ok held) ∨
          ((∀ held, disk.openId X ks id password ≠ .ok held) ∧
            ∃ payload, source.payload X disk = .ok payload ∧
              disk'.openId X ks id password = .ok payload))
        (fun _ _ => True) (fun _ => True) := by
    apply (importPayloadUnlocked_all payload password (some id.value)).mono ?_
      (fun _ _ _ => trivial) fun _ _ => trivial
    rintro _ disk' ⟨id', hid', h⟩
    obtain rfl : id = id' := by simpa [hid] using hid'
    rcases h.openId hX with h | ⟨habsent, hopen⟩
    · exact .inl h
    · refine .inr ⟨fun held => ?_, payload, hsource, hopen⟩
      simp [Disk.openId, habsent]
  cases source with
  | mnemonic phrase | privateKey bytes =>
    apply Proc.All.bind
    exact Proc.All.ofExcept hpayload fun _ _ => trivial
  | v3 path v3Password =>
    apply (importV3_all path v3Password password (some id.value)).mono ?_
      (fun _ _ _ => trivial) fun _ _ => trivial
    rintro _ disk' ⟨id', hid', h⟩
    obtain rfl : id = id' := by simpa [hid] using hid'
    rcases h with h | ⟨disk₁, secret, payload, hc, hs, hp, h⟩
    · exact .inl h
    · rcases h.openId hX with ⟨rfl, held, hheld⟩ | ⟨habsent, hopen⟩
      · obtain rfl := hc.opens_nothing hheld
        exact .inl ⟨rfl, held, hheld⟩
      · refine .inr ⟨fun held hheld => ?_, payload, ?_, hopen⟩
        · -- A file that opens is neither missing nor corrupt.
          rcases hc with rfl | ⟨-, e, -, he⟩
          · simp [Disk.openId, habsent] at hheld
          · simp [he] at hheld
        · simp only [ImportSource.payload, hc.openV3 hs, ok_bind, hp]

end

/-- After a successful import under an id, an undisturbed decrypt with the same id and
password succeeds. If the id had a file that this password opened, the disk is as it was and
the decrypt returns what that file held; otherwise (no file, or for a v3 import one that is
corrupt) it returns the imported secret.

**Proof sketch.** The import ends in a file that was there and opened, or in a fresh one that
holds the sealed payload; sealing is undone by opening. -/
theorem importSecret_decrypts {X : Externals} (hX : X.Lawful) {ks : FileKeystore} {draws : Draws}
    {source : ImportSource} {password : List UInt8} {id : KeystoreId} {disk disk' : Disk}
    {faults rest : List Fault} {found : StoredSecretMeta}
    (h : importSecret X ks draws source password (some id.value) disk faults =
      (.ok found, disk', rest)) :
    (∀ held, disk.openId X ks id password = .ok held →
      disk' = disk ∧
        (decryptPayloadUnlocked X ks id.value password).Calm disk' (.ok held) disk') ∧
    ((∀ held, disk.openId X ks id password ≠ .ok held) →
      ∃ payload, source.payload X disk = .ok payload ∧
        (decryptPayloadUnlocked X ks id.value password).Calm disk' (.ok payload) disk') := by
  rcases (importSecret_all hX source).of_ok h with ⟨rfl, held, hheld⟩ | ⟨hnot, payload, hp, hopen⟩
  · constructor
    · intro held' hheld'
      exact ⟨rfl, decryptPayloadUnlocked_calm hheld'⟩
    · intro hnot
      exact absurd hheld (hnot held)
  · constructor
    · intro held hheld
      exact absurd hheld (hnot held)
    · intro _
      exact ⟨payload, hp, decryptPayloadUnlocked_calm hopen⟩

/-! ## Concrete imports -/

/-- A keystore with small Argon2 parameters. -/
def sampleKeystore : FileKeystore :=
  ⟨"keystore", ⟨8, 1, 1, (.zeros 16), 32⟩⟩

/-- Random draws. -/
def sampleDraws : Draws :=
  ⟨some ⟨List.replicate 16 1, rfl⟩, some ⟨List.replicate 12 2, rfl⟩, referenceId "",
    referenceId "draw"⟩

/-- An id. -/
def sampleId : KeystoreId := referenceId "w"

/-- The run of an import of a key on an empty disk. -/
def sampleImport : Outcome KeystoreError StoredSecretMeta × Disk × List Fault :=
  importSecret reference sampleKeystore sampleDraws (.privateKey [7, 7]) [1, 2, 3]
    (some sampleId.value) (fun _ => none) []

/-- The disk it leaves. -/
def sampleDisk : Disk := sampleImport.2.1

/-- The first import, a second one of another key under the same id, and reading the secret. -/
theorem sampleImport_runs :
    sampleImport.1 = .ok ⟨sampleId.value, .privateKey, 4⟩ ∧
    (importSecret reference sampleKeystore sampleDraws (.privateKey [9]) [1, 2, 3]
      (some sampleId.value) sampleDisk []).1 = .ok ⟨sampleId.value, .privateKey, 4⟩ ∧
    (decryptPayloadUnlocked reference sampleKeystore sampleId.value [1, 2, 3]
      (importSecret reference sampleKeystore sampleDraws (.privateKey [9]) [1, 2, 3]
        (some sampleId.value) sampleDisk []).2.1 []).1 = .ok (.privateKey [7, 7]) := by
  decide +kernel

lemma sampleImport_eq :
    sampleImport = (.ok ⟨sampleId.value, .privateKey, 4⟩, sampleDisk, sampleImport.2.2) := by
  rw [← sampleImport_runs.1, sampleDisk]

/-- The first import, on an empty disk: the key decrypts under its password. -/
theorem importSecret_decrypts_sample :
    ∃ payload, (ImportSource.privateKey [7, 7]).payload reference (fun _ => none) = .ok payload ∧
      (decryptPayloadUnlocked reference sampleKeystore sampleId.value [1, 2, 3]).Calm sampleDisk
        (.ok payload) sampleDisk := by
  apply (importSecret_decrypts reference_lawful sampleImport_eq).2
  intro held
  simp [Disk.openId]

/-- A second import, of another key under the same id and password, succeeds too, and the id
still decrypts to the first key. -/
theorem importSecret_keeps_existing :
    (importSecret reference sampleKeystore sampleDraws (.privateKey [9]) [1, 2, 3]
      (some sampleId.value) sampleDisk []).1 = .ok ⟨sampleId.value, .privateKey, 4⟩ ∧
    (ImportSource.privateKey [9]).payload reference sampleDisk = .ok (.privateKey [9]) ∧
    (decryptPayloadUnlocked reference sampleKeystore sampleId.value [1, 2, 3]
      (importSecret reference sampleKeystore sampleDraws (.privateKey [9]) [1, 2, 3]
        (some sampleId.value) sampleDisk []).2.1 []).1 = .ok (.privateKey [7, 7]) := by
  exact ⟨sampleImport_runs.2.1, rfl, sampleImport_runs.2.2⟩

example : sampleImport.1 = .ok ⟨sampleId.value, .privateKey, 4⟩ := by decide +kernel

end GemCore.Keystore
