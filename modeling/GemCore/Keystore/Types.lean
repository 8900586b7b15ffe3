import GemCore.Primitives.Hex

/-!
# Keystore data

The data of the `gem_keystore` crate: errors, keystore ids, secrets, the header of a v4 file
and the two file formats as `serde` reads and writes them. The libraries the crate calls
(JSON, Argon2, AES, scrypt, Unicode tables, BIP-39) are the fields of `Externals`, and what
the crate relies on about them is `Externals.Lawful`.

## Main definitions

* `KeystoreError` — what an operation fails with.
* `KeystoreId` — canonical random or name-based UUIDs.
* `SecretPayload`, `Header` — a secret and what a file says about it.
* `Externals`, `Externals.Lawful` — the libraries.
-/

namespace GemCore.Keystore

open Lib

/-- `KeystoreError`. -/
inductive KeystoreError where
  | notFound
  | alreadyExists
  | invalidInput (message : String)
  | unsupported (message : String)
  | authenticationFailed
  | corruptFile (message : String)
  | io (message : String)
  deriving DecidableEq

/-- `Display` for `KeystoreError`. -/
def KeystoreError.text : KeystoreError → String
  | .notFound => "Not found"
  | .alreadyExists => "Already exists"
  | .invalidInput message => "Invalid " ++ message
  | .unsupported message => "Unsupported " ++ message
  | .authenticationFailed => "Authentication failed"
  | .corruptFile message => "Corrupt keystore file: " ++ message
  | .io message => "IO error: " ++ message

/-- The corrupt-file errors, which `import_v3` tells from the others. -/
def KeystoreError.IsCorrupt (e : KeystoreError) : Prop := ∃ message, e = .corruptFile message

/-! ## Constants (`storage/constants.rs`, `v3/constants.rs`) -/

def versionV4 : ℕ := 4
def encryptedBodyCap : ℕ := 64 * 1024
def wholeFileCap : ℕ := 128 * 1024
def passwordCap : ℕ := 1024 * 1024
def aesGcmTagLen : ℕ := 16
def argon2OutputLen : ℕ := 32
def maxArgon2MemoryKib : ℕ := 262144
def maxArgon2Iterations : ℕ := 10
def maxArgon2Parallelism : ℕ := 4
def mnemonicPlaintextCap : ℕ := 512
def aes128KeyLen : ℕ := 16
def derivedKeyLen : ℕ := 32
def maxSaltLen : ℕ := 64
def maxScryptN : ℕ := 16384
def maxScryptR : ℕ := 8
def maxScryptP : ℕ := 4

/-! ## Ids (`id.rs`) -/

/-- A lower-case hex digit, as `Uuid::to_string` writes them. -/
def isLowerHex (c : Char) : Bool := ('0' ≤ c && c ≤ '9') || ('a' ≤ c && c ≤ 'f')

/-- `Uuid::parse_str` reads several spellings; `KeystoreId::parse` then keeps the one that
`Uuid::to_string` writes, and of those the versions 4 (random) and 5 (SHA-1). -/
def isKeystoreId (value : List Char) : Bool :=
  value.length == 36 &&
    (value.zipIdx.all fun (c, i) =>
      if i = 8 ∨ i = 13 ∨ i = 18 ∨ i = 23 then c == '-' else isLowerHex c) &&
    (value[14]? == some '4' || value[14]? == some '5')

/-- `KeystoreId`: the text of a UUID, known to be one that `parse` accepts. -/
structure KeystoreId where
  value : String
  valid : isKeystoreId value.toList = true
  deriving DecidableEq

@[ext] lemma KeystoreId.ext {a b : KeystoreId} (h : a.value = b.value) : a = b := by
  cases a
  cases b
  cases h
  rfl

/-- `KeystoreId::parse`. -/
def KeystoreId.parse (value : String) : Except KeystoreError KeystoreId :=
  if h : isKeystoreId value.toList = true then .ok ⟨value, h⟩
  else .error (.invalidInput "keystore id")

@[simp] lemma KeystoreId.parse_value (id : KeystoreId) : KeystoreId.parse id.value = .ok id := by
  simp [KeystoreId.parse, id.valid]

lemma KeystoreId.length_value (id : KeystoreId) : id.value.toList.length = 36 := by
  have h := id.valid
  simp only [isKeystoreId, Bool.and_eq_true, beq_iff_eq] at h
  exact h.1.1

/-! ## Secrets and headers (`storage/types.rs`) -/

/-- `SecretKind`. -/
inductive SecretKind where
  | mnemonic
  | privateKey
  deriving DecidableEq

/-- `SecretKind::as_ref`. -/
def SecretKind.asRef : SecretKind → String
  | .mnemonic => "mnemonic"
  | .privateKey => "private_key"

/-- `SecretKind::from_str`. -/
def SecretKind.fromStr (text : String) : Option SecretKind :=
  if text = "mnemonic" then some .mnemonic
  else if text = "private_key" then some .privateKey
  else none

@[simp] lemma SecretKind.fromStr_asRef (kind : SecretKind) :
    SecretKind.fromStr kind.asRef = some kind := by
  cases kind <;> rfl

/-- `KdfParams`, whose one kind is Argon2id. -/
structure KdfParams where
  memoryKib : ℕ
  iterations : ℕ
  parallelism : ℕ
  salt : FixedBytes 16
  outputLen : ℕ

/-- `CipherParams`, whose one kind is AES-256-GCM. -/
structure CipherParams where
  nonce : FixedBytes 12
  tagLen : ℕ

/-- `Header`: what a file says in the clear about its secret. -/
structure Header where
  keystoreId : String
  kind : SecretKind
  kdf : KdfParams
  cipher : CipherParams

/-- `ParsedFile`. -/
structure ParsedFile where
  header : Header
  ciphertext : List UInt8

/-- `StoredSecretMeta`. -/
structure StoredSecretMeta where
  keystoreId : String
  kind : SecretKind
  version : ℕ
  deriving DecidableEq

/-- `SecretPayload`. -/
inductive SecretPayload where
  | mnemonic (phrase : String)
  | privateKey (bytes : List UInt8)
  deriving DecidableEq

/-- `SecretPayload::kind`. -/
def SecretPayload.kind : SecretPayload → SecretKind
  | .mnemonic _ => .mnemonic
  | .privateKey _ => .privateKey

/-- `String::into_bytes`. -/
def utf8 (text : String) : List UInt8 := text.toUTF8.data.toList

/-- `String::from_utf8`. -/
def fromUtf8 (bytes : List UInt8) : Option String := String.fromUTF8? ⟨bytes.toArray⟩

@[simp] lemma fromUtf8_utf8 (text : String) : fromUtf8 (utf8 text) = some text :=
  fromUTF8?_eq_some_iff.mpr rfl

/-- `SecretPayload::into_bytes`. -/
def SecretPayload.intoBytes : SecretPayload → List UInt8
  | .mnemonic phrase => utf8 phrase
  | .privateKey bytes => bytes

/-- `SecretPayload::from_bytes`. -/
def SecretPayload.fromBytes (kind : SecretKind) (bytes : List UInt8) :
    Except KeystoreError SecretPayload :=
  match kind with
  | .mnemonic =>
    match fromUtf8 bytes with
    | some phrase => .ok (.mnemonic phrase)
    | none => .error (.corruptFile "mnemonic payload is not valid UTF-8")
  | .privateKey => .ok (.privateKey bytes)

@[simp] lemma SecretPayload.fromBytes_intoBytes (payload : SecretPayload) :
    SecretPayload.fromBytes payload.kind payload.intoBytes = .ok payload := by
  cases payload <;> simp [fromBytes, kind, intoBytes]

/-- `SecretPayload::into_mnemonic`. -/
def SecretPayload.intoMnemonic : SecretPayload → Except KeystoreError String
  | .mnemonic phrase => .ok phrase
  | .privateKey _ => .error (.corruptFile "stored secret is not a mnemonic")

/-- `SecretPayload::into_private_key`. -/
def SecretPayload.intoPrivateKey : SecretPayload → Except KeystoreError (List UInt8)
  | .mnemonic _ => .error (.corruptFile "stored secret is not a private key")
  | .privateKey bytes => .ok bytes

/-! ## The files as read and written by `serde_json` -/

/-- `KdfV4`. -/
structure KdfV4 where
  algorithm : String
  memoryKib : ℕ
  iterations : ℕ
  parallelism : ℕ
  salt : String
  outputLen : ℕ

/-- `CipherV4`. -/
structure CipherV4 where
  algorithm : String
  nonce : String
  tagLen : ℕ

/-- `CryptoV4`. -/
structure CryptoV4 where
  kdf : KdfV4
  cipher : CipherV4
  ciphertext : String

/-- `FileV4`. -/
structure FileV4 where
  version : ℕ
  id : String
  kind : String
  crypto : CryptoV4

/-- `AuthenticatedV4`: everything except the ciphertext, the additional data of AES-GCM. -/
structure AuthenticatedV4 where
  version : ℕ
  id : String
  kind : String
  kdf : KdfV4
  cipher : CipherV4

/-- `KindV3`. -/
inductive KindV3 where
  | mnemonic
  | privateKey

/-- `KdfParamsV3`. -/
structure KdfParamsV3 where
  dklen : ℕ
  n : ℕ
  p : ℕ
  r : ℕ
  salt : List UInt8

/-- `KeystoreV3` with its `CryptoV3` and `CipherParamsV3`, hex fields decoded. -/
structure KeystoreV3 where
  cipher : String
  iv : List UInt8
  ciphertext : List UInt8
  kdf : String
  kdfparams : KdfParamsV3
  mac : List UInt8
  id : Option String
  kind : KindV3
  version : ℕ

/-- `SecretV3`. -/
inductive SecretV3 where
  | mnemonic (phrase : String)
  | privateKey (bytes : List UInt8)
  deriving DecidableEq

/-! ## Libraries -/

/-- What the crate calls outside itself. A text in an error is the library's message. -/
structure Externals where
  /-- `serde_json::to_vec_pretty` of a v4 file. -/
  toVecPretty : FileV4 → Except String (List UInt8)
  /-- `serde_json::to_vec` of the authenticated part of a v4 file. -/
  toVec : AuthenticatedV4 → Except String (List UInt8)
  /-- `serde_json::from_slice` of a v4 file. -/
  fromSliceV4 : List UInt8 → Except String FileV4
  /-- `serde_json::from_slice` of a v3 file. -/
  fromSliceV3 : List UInt8 → Except String KeystoreV3
  /-- `argon2::Params::new` on the numbers of a header. -/
  argon2Params : (memoryKib iterations parallelism outputLen : ℕ) → Except String Unit
  /-- `Argon2::hash_password_into` with those parameters, on a password and a salt. -/
  argon2Hash : (memoryKib iterations parallelism outputLen : ℕ) → (password : List UInt8) →
    (salt : FixedBytes 16) → Except String (FixedBytes 32)
  /-- `Aes256Gcm::encrypt_in_place`, tag appended. -/
  aesGcmEncrypt : FixedBytes 32 → FixedBytes 12 → (aad body : List UInt8) →
    Option (List UInt8)
  /-- `Aes256Gcm::decrypt_in_place`, tag checked and removed. -/
  aesGcmDecrypt : FixedBytes 32 → FixedBytes 12 → (aad body : List UInt8) →
    Option (List UInt8)
  /-- `scrypt` with checked parameters. -/
  scrypt : (password : List UInt8) → KdfParamsV3 → Except String (List UInt8)
  /-- `Keccak256`. -/
  keccak256 : List UInt8 → List UInt8
  /-- `Aes128Ctr` on key, initial counter and text. -/
  aes128Ctr : (key iv text : List UInt8) → Option (List UInt8)
  /-- `UnicodeNormalization::nfkd`. -/
  nfkd : String → String
  /-- `str::to_lowercase`. -/
  toLowercase : String → String
  /-- `Bip39Mnemonic::parse_in_normalized` and the words of what it read. -/
  parseMnemonic : String → Option (List String)
  /-- `Uuid::new_v5` in the keystore namespace. -/
  newV5 : String → KeystoreId

/-- Two texts of lower-case hex digits of the same length. -/
def SameHexLength (a b : String) : Prop :=
  a.toList.all isLowerHex ∧ b.toList.all isLowerHex ∧ a.toList.length = b.toList.length

/-- Two files alike in everything but the digits of their salt, nonce and ciphertext. -/
structure FileV4.SameShape (f g : FileV4) : Prop where
  version : f.version = g.version
  id : f.id = g.id
  kind : f.kind = g.kind
  kdf : { f.crypto.kdf with salt := "" } = { g.crypto.kdf with salt := "" }
  cipher : { f.crypto.cipher with nonce := "" } = { g.crypto.cipher with nonce := "" }
  salt : SameHexLength f.crypto.kdf.salt g.crypto.kdf.salt
  nonce : SameHexLength f.crypto.cipher.nonce g.crypto.cipher.nonce
  ciphertext : SameHexLength f.crypto.ciphertext g.crypto.ciphertext

/-- The documented behaviour of the libraries that the crate relies on. -/
structure Externals.Lawful (X : Externals) : Prop where
  /-- Writing a structure of texts and numbers does not fail. -/
  json_writes : ∀ file, ∃ bytes, X.toVecPretty file = .ok bytes
  /-- The same for the authenticated part. -/
  aad_writes : ∀ authenticated, ∃ bytes, X.toVec authenticated = .ok bytes
  /-- A v4 file is read back as it was written. -/
  json_round_trip : ∀ {file bytes}, X.toVecPretty file = .ok bytes →
    X.fromSliceV4 bytes = .ok file
  /-- Both formats read the number under `version`. -/
  json_version : ∀ {bytes file keystore}, X.fromSliceV4 bytes = .ok file →
    X.fromSliceV3 bytes = .ok keystore → file.version = keystore.version
  /-- Argon2 accepts every password and salt of the lengths the crate allows. -/
  argon2_total : ∀ {m t p l password} salt, X.argon2Params m t p l = .ok () →
    password ≠ [] → password.length ≤ passwordCap →
      ∃ key, X.argon2Hash m t p l password salt = .ok key
  /-- AES-GCM accepts every body the crate allows, appends a tag of 16 bytes, and opens what
  it sealed. -/
  gcm_seal : ∀ key nonce aad {body}, body.length + aesGcmTagLen ≤ encryptedBodyCap →
    ∃ sealed, X.aesGcmEncrypt key nonce aad body = some sealed ∧
      sealed.length = body.length + aesGcmTagLen ∧ X.aesGcmDecrypt key nonce aad sealed = some body
  /-- How long a written file is does not depend on its hex digits. -/
  json_length : ∀ {f g b c}, f.SameShape g → X.toVecPretty f = .ok b → X.toVecPretty g = .ok c →
    b.length = c.length

end GemCore.Keystore
