import Mathlib.Data.List.Infix
import GemCore.Keystore.Secret

/-!
# Reading v3 files

The reader of the legacy scrypt files (`v3/reader.rs`, `v3/types.rs`, `v3/crypto.rs`) and the
cleaning of a mnemonic (`mnemonic.rs`), which both formats pass a phrase through.

## Main definitions

* `cleanMnemonic` — `Mnemonic::clean`.
* `openFileV3` — what the bytes of a v3 file give under a password.

## Main results

* `openFileV3_ne_ok_of_openFile` — no bytes are both a v3 and a v4 file.
-/

namespace GemCore.Keystore

open Lib

/-- `Mnemonic::clean`. -/
def cleanMnemonic (X : Externals) (phrase : String) : Except KeystoreError String := do
  let words := (splitWhitespace (X.nfkd phrase).toList).map fun word =>
    X.toLowercase (String.ofList word)
  let words ← okOr (X.parseMnemonic (" ".intercalate words)) (.invalidInput "mnemonic")
  .ok (" ".intercalate words)

/-- `map_json_error`: the messages of the hex fields are kept, others come with the position
`serde_json` adds. -/
def mapJsonError (message : String) : KeystoreError :=
  match ["invalid v3 hex length", "invalid v3 hex", "v3 ciphertext too large"].find?
      fun known => decide (known.toList <:+: message.toList) with
  | some known => .corruptFile known
  | none => .corruptFile message

/-- `KdfParamsV3::validate`. -/
def KdfParamsV3.validate (params : KdfParamsV3) : Except KeystoreError Unit :=
  if params.dklen ≠ derivedKeyLen then .error (.corruptFile "invalid v3 scrypt dklen")
  else if params.n = 0 ∨ params.n > maxScryptN ∨ 2 ^ params.n.log2 ≠ params.n then
    .error (.corruptFile "invalid v3 scrypt n")
  else if params.r = 0 ∨ params.r > maxScryptR then .error (.corruptFile "invalid v3 scrypt r")
  else if params.p = 0 ∨ params.p > maxScryptP then .error (.corruptFile "invalid v3 scrypt p")
  else if params.salt.length > maxSaltLen then .error (.corruptFile "invalid v3 hex length")
  else .ok ()

/-- `KeystoreV3::validate`. -/
def KeystoreV3.validate (keystore : KeystoreV3) : Except KeystoreError Unit :=
  if keystore.version ≠ 3 then .error (.unsupported "version")
  else if keystore.cipher ≠ "aes-128-ctr" then .error (.corruptFile "unsupported v3 cipher")
  else if keystore.kdf ≠ "scrypt" then .error (.unsupported "v3 KDF")
  else keystore.kdfparams.validate

/-- `KeystoreV3::parse`. -/
def KeystoreV3.parse (X : Externals) (input : List UInt8) : Except KeystoreError KeystoreV3 :=
  if input.length > wholeFileCap then .error (.corruptFile "v3 file too large")
  else do
    let keystore ← (X.fromSliceV3 input).mapError mapJsonError
    keystore.validate
    .ok keystore

/-- `decrypt_v3_json`, with `derive_scrypt_key` and `verify_v3_mac`. -/
def decryptV3Json (X : Externals) (json : KeystoreV3) (password : List UInt8) :
    Except KeystoreError (List UInt8) := do
  json.kdfparams.validate
  let derivedKey ← (X.scrypt password json.kdfparams).mapError .corruptFile
  let expected := X.keccak256 ((derivedKey.take derivedKeyLen).drop aes128KeyLen ++ json.ciphertext)
  if expected ≠ json.mac then .error .authenticationFailed
  else
    okOr (X.aes128Ctr (derivedKey.take aes128KeyLen) json.iv json.ciphertext)
      (.corruptFile "invalid AES-128-CTR parameters")

/-- `ReaderV3::decrypt_json_bytes`. -/
def decryptJsonBytes (X : Externals) (input password : List UInt8) :
    Except KeystoreError SecretV3 :=
  if input.length > wholeFileCap then .error (.corruptFile "v3 file too large")
  else if password.length > passwordCap then .error (.invalidInput "password input")
  else do
    let keystore ← KeystoreV3.parse X input
    let plaintext ← decryptV3Json X keystore password
    match keystore.kind with
    | .mnemonic =>
      if plaintext.length > mnemonicPlaintextCap then
        .error (.corruptFile "v3 mnemonic plaintext too large")
      else do
        let phrase ← okOr (fromUtf8 plaintext) (.corruptFile "invalid v3 mnemonic")
        let cleaned ← (cleanMnemonic X phrase).mapError
          fun _ => KeystoreError.corruptFile "invalid v3 mnemonic"
        .ok (.mnemonic cleaned)
    | .privateKey =>
      if plaintext.length ≠ 32 then .error (.corruptFile "invalid v3 private key")
      else .ok (.privateKey plaintext)

/-- What the bytes of a v3 file give under a password: `read_capped` and
`decrypt_json_bytes` in a row. -/
def openFileV3 (X : Externals) (bytes password : List UInt8) : Except KeystoreError SecretV3 :=
  if bytes.length > wholeFileCap then .error (.corruptFile "file too large")
  else decryptJsonBytes X bytes password

section Versions

variable {X : Externals} {bytes : List UInt8}

lemma version_of_parseV4 {parsed : ParsedFile} (h : parseV4 X bytes = .ok parsed) :
    ∃ file, X.fromSliceV4 bytes = .ok file ∧ file.version = versionV4 := by
  obtain ⟨file, hfile, h⟩ := bind_eq_ok_iff.mp h
  rw [guard_eq_ok_iff, ne_eq, not_not] at h
  exact ⟨file, mapError_eq_ok_iff.mp hfile, h.1⟩

lemma version_of_parseV3 {keystore : KeystoreV3} (h : KeystoreV3.parse X bytes = .ok keystore) :
    X.fromSliceV3 bytes = .ok keystore ∧ keystore.version = 3 := by
  rw [KeystoreV3.parse, guard_eq_ok_iff] at h
  obtain ⟨file, hfile, h⟩ := bind_eq_ok_iff.mp h.2
  obtain ⟨hv, hk⟩ := check_bind_eq_ok_iff.mp h
  obtain rfl : file = keystore := by simpa using hk
  rw [KeystoreV3.validate, guard_eq_ok_iff, ne_eq, not_not] at hv
  exact ⟨mapError_eq_ok_iff.mp hfile, hv.1⟩

lemma parse_of_openFileV3 {password : List UInt8} {secret : SecretV3}
    (h : openFileV3 X bytes password = .ok secret) :
    ∃ keystore, KeystoreV3.parse X bytes = .ok keystore := by
  rw [openFileV3, decryptJsonBytes, guard_eq_ok_iff, guard_eq_ok_iff,
    guard_eq_ok_iff] at h
  obtain ⟨keystore, hk, -⟩ := bind_eq_ok_iff.mp h.2.2.2
  exact ⟨keystore, hk⟩

/-- The two formats share the field `version`, so no bytes open as both. -/
lemma openFileV3_ne_ok_of_openFile (hX : X.Lawful) {id : KeystoreId}
    {password password' : List UInt8} {payload : SecretPayload} {secret : SecretV3}
    (h : openFile X bytes id password = .ok payload) :
    openFileV3 X bytes password' ≠ .ok secret := by
  intro h'
  obtain ⟨-, parsed, hparsed, -⟩ := openFile_eq_ok_iff.mp h
  obtain ⟨file, hfile, hv4⟩ := version_of_parseV4 hparsed
  obtain ⟨keystore, hk⟩ := parse_of_openFileV3 h'
  obtain ⟨hk, hv3⟩ := version_of_parseV3 hk
  have hv := hX.json_version hfile hk
  rw [hv4, hv3, versionV4] at hv
  omega

end Versions

end GemCore.Keystore
