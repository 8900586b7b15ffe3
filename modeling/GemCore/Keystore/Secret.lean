import GemCore.Keystore.Types
import GemCore.Lib.Result

/-!
# Sealing and opening a secret

The v4 file format (`storage/format.rs`), the key derivation and cipher around it
(`storage/crypto.rs`), and the two functions that take a secret to a file and back
(`storage/secret.rs`). What a file holds under a password is `openFile`.

## Main definitions

* `parseV4`, `encodeV4` — reading and writing a v4 file.
* `encryptSecret`, `decryptSecret` — a secret to a file and back.
* `openFile` — what a file's bytes give under an id and a password.

## Main results

* `openFile_encryptSecret` — a sealed secret opens to itself.
* `not_opens_of_corrupt` — a file found corrupt under one password opens under none.
* `encryptSecret_draws` — whether sealing succeeds does not depend on the salt and nonce drawn.
-/

namespace GemCore.Keystore

open Lib

/-! ## Hex -/

/-- The lower-case hex digit of a number below 16. -/
def hexChar (n : ℕ) : Char :=
  if n < 10 then Char.ofNat ('0'.toNat + n) else Char.ofNat ('a'.toNat + (n - 10))

/-- `hex::encode`. -/
def encodeHex (bytes : List UInt8) : String :=
  String.ofList (bytes.flatMap fun b => [hexChar (b.toNat / 16), hexChar (b.toNat % 16)])

lemma hexDigit_hexChar {n : ℕ} (h : n < 16) : hexDigit (hexChar n) = some n := by
  revert n
  decide

lemma isLowerHex_hexChar {n : ℕ} (h : n < 16) : isLowerHex (hexChar n) = true := by
  revert n
  decide

/-- `hex::decode` inverts `hex::encode`. -/
lemma decodeHexPairs_encodeHex (bytes : List UInt8) :
    decodeHexPairs (encodeHex bytes).toList = some bytes := by
  simp only [encodeHex, String.toList_ofList]
  induction bytes with
  | nil => rfl
  | cons b bytes ih =>
    have hb : b.toNat < 256 := b.toNat_lt
    have hmod : 16 * (b.toNat / 16) + b.toNat % 16 = b.toNat := Nat.div_add_mod _ _
    simp only [List.flatMap_cons, List.cons_append, List.nil_append, decodeHexPairs, ih,
      hexDigit_hexChar (show b.toNat / 16 < 16 by omega),
      hexDigit_hexChar (show b.toNat % 16 < 16 by omega), Option.bind_eq_bind, Option.bind_some,
      hmod]
    simp

lemma length_encodeHex (bytes : List UInt8) :
    (encodeHex bytes).toList.length = 2 * bytes.length := by
  simp only [encodeHex, String.toList_ofList]
  induction bytes with
  | nil => rfl
  | cons b bytes ih =>
    simp only [List.flatMap_cons, List.length_append, List.length_cons, List.length_nil, ih]
    omega

lemma isLowerHex_encodeHex (bytes : List UInt8) :
    (encodeHex bytes).toList.all isLowerHex = true := by
  simp only [encodeHex, String.toList_ofList, List.all_eq_true, List.mem_flatMap]
  rintro c ⟨b, -, hc⟩
  have hb : b.toNat < 256 := b.toNat_lt
  simp only [List.mem_cons, List.not_mem_nil, or_false] at hc
  rcases hc with rfl | rfl
  · exact isLowerHex_hexChar (by omega)
  · exact isLowerHex_hexChar (by omega)

lemma sameHexLength_encodeHex {a b : List UInt8} (h : a.length = b.length) :
    SameHexLength (encodeHex a) (encodeHex b) :=
  ⟨isLowerHex_encodeHex a, isLowerHex_encodeHex b, by rw [length_encodeHex, length_encodeHex, h]⟩

/-! ## Checks -/

/-- `validate_v4_password`. -/
def validateV4Password (password : List UInt8) : Except KeystoreError Unit :=
  if password = [] ∨ password.length > passwordCap then .error (.invalidInput "password input")
  else .ok ()

/-- `KdfParams::validate`. -/
def KdfParams.validate (kdf : KdfParams) : Except KeystoreError Unit :=
  if kdf.memoryKib = 0 ∨ kdf.memoryKib > maxArgon2MemoryKib then
    .error (.corruptFile "invalid Argon2 memory")
  else if kdf.iterations = 0 ∨ kdf.iterations > maxArgon2Iterations then
    .error (.corruptFile "invalid Argon2 iterations")
  else if kdf.parallelism = 0 ∨ kdf.parallelism > maxArgon2Parallelism then
    .error (.corruptFile "invalid Argon2 parallelism")
  else if kdf.outputLen ≠ argon2OutputLen then
    .error (.corruptFile "invalid Argon2 output length")
  else .ok ()

/-- `CipherParams::validate`. -/
def CipherParams.validate (cipher : CipherParams) : Except KeystoreError Unit :=
  if cipher.tagLen ≠ aesGcmTagLen then .error (.corruptFile "invalid AES-GCM tag length")
  else .ok ()

/-- `validate_header`. -/
def validateHeader (header : Header) : Except KeystoreError Unit := do
  let _ ← (KeystoreId.parse header.keystoreId).mapError
    fun _ => KeystoreError.corruptFile "invalid keystore id"
  header.kdf.validate
  header.cipher.validate

/-- `meta_from_header`. -/
def metaFromHeader (header : Header) : StoredSecretMeta :=
  ⟨header.keystoreId, header.kind, versionV4⟩

/-! ## The file format -/

/-- `decode_hex`. -/
def decodeHexField (value : String) : Except KeystoreError (List UInt8) :=
  okOr (decodeHexPairs value.toList) (.corruptFile "invalid hex")

/-- `decode_hex` followed by `try_into` an array. -/
def decodeHexFixed (n : ℕ) (message value : String) :
    Except KeystoreError (FixedBytes n) := do
  let bytes ← decodeHexField value
  if h : bytes.length = n then .ok ⟨bytes, h⟩ else .error (.corruptFile message)

/-- `parse_v4`. -/
def parseV4 (X : Externals) (bytes : List UInt8) : Except KeystoreError ParsedFile := do
  let file ← (X.fromSliceV4 bytes).mapError .corruptFile
  if file.version ≠ versionV4 then .error (.unsupported "version")
  else do
    let kind ← okOr (SecretKind.fromStr file.kind) (.corruptFile "unknown secret kind")
    if file.crypto.kdf.algorithm ≠ "argon2id" then
      .error (.corruptFile "unknown kdf algorithm")
    else if file.crypto.cipher.algorithm ≠ "aes-256-gcm" then
      .error (.corruptFile "unknown cipher algorithm")
    else do
      let salt ← decodeHexFixed 16 "invalid Argon2 salt length" file.crypto.kdf.salt
      let nonce ← decodeHexFixed 12 "invalid AES-GCM nonce length" file.crypto.cipher.nonce
      let ciphertext ← decodeHexField file.crypto.ciphertext
      let header : Header :=
        ⟨file.id, kind,
          ⟨file.crypto.kdf.memoryKib, file.crypto.kdf.iterations, file.crypto.kdf.parallelism,
            salt, file.crypto.kdf.outputLen⟩,
          ⟨nonce, file.crypto.cipher.tagLen⟩⟩
      validateHeader header
      if ciphertext.length < header.cipher.tagLen then
        .error (.corruptFile "ciphertext shorter than tag")
      else if ciphertext.length > encryptedBodyCap then
        .error (.corruptFile "ciphertext too large")
      else .ok ⟨header, ciphertext⟩

/-- `kdf_to_wire`. -/
def kdfToWire (kdf : KdfParams) : KdfV4 :=
  ⟨"argon2id", kdf.memoryKib, kdf.iterations, kdf.parallelism, encodeHex kdf.salt.1,
    kdf.outputLen⟩

/-- `cipher_to_wire`. -/
def cipherToWire (cipher : CipherParams) : CipherV4 :=
  ⟨"aes-256-gcm", encodeHex cipher.nonce.1, cipher.tagLen⟩

/-- The file `encode_v4` writes. -/
def fileOf (header : Header) (ciphertext : List UInt8) : FileV4 :=
  ⟨versionV4, header.keystoreId, header.kind.asRef,
    ⟨kdfToWire header.kdf, cipherToWire header.cipher, encodeHex ciphertext⟩⟩

/-- `encode_v4`. -/
def encodeV4 (X : Externals) (header : Header) (ciphertext : List UInt8) :
    Except KeystoreError (List UInt8) :=
  (X.toVecPretty (fileOf header ciphertext)).mapError .corruptFile

/-- `authenticated_bytes`. -/
def authenticatedBytes (X : Externals) (header : Header) : Except KeystoreError (List UInt8) :=
  (X.toVec ⟨versionV4, header.keystoreId, header.kind.asRef, kdfToWire header.kdf,
    cipherToWire header.cipher⟩).mapError .corruptFile

/-! ## Keys -/

/-- `derive_key`. -/
def deriveKey (X : Externals) (password : List UInt8) (kdf : KdfParams) :
    Except KeystoreError (FixedBytes 32) := do
  validateV4Password password
  kdf.validate
  (X.argon2Params kdf.memoryKib kdf.iterations kdf.parallelism kdf.outputLen).mapError
    .corruptFile
  (X.argon2Hash kdf.memoryKib kdf.iterations kdf.parallelism kdf.outputLen password
    kdf.salt).mapError .corruptFile

/-! ## Secrets -/

/-- What one operation draws at random: the salt and nonce of `encrypt_secret`, where the
generator can fail, the id of an import without one, and the suffix of the staging file. -/
structure Draws where
  salt : Option (FixedBytes 16)
  nonce : Option (FixedBytes 12)
  newId : KeystoreId
  tempId : KeystoreId

/-- `gem_crypto::random::bytes`. -/
def randomBytes {n : ℕ} (draw : Option (FixedBytes n)) :
    Except KeystoreError (FixedBytes n) :=
  okOr draw (.io "secure random generation failed")

/-- `encrypt_secret`. -/
def encryptSecret (X : Externals) (draws : Draws) (defaultKdf : KdfParams)
    (payload : SecretPayload) (password : List UInt8) (id : KeystoreId) :
    Except KeystoreError (List UInt8) := do
  validateV4Password password
  let salt ← randomBytes draws.salt
  let nonce ← randomBytes draws.nonce
  let header : Header :=
    ⟨id.value, payload.kind, { defaultKdf with salt := salt }, ⟨nonce, aesGcmTagLen⟩⟩
  let aad ← authenticatedBytes X header
  let body := payload.intoBytes
  if body.length + aesGcmTagLen > encryptedBodyCap then
    .error (.corruptFile "payload too large")
  else do
    let key ← deriveKey X password header.kdf
    let sealed ← okOr (X.aesGcmEncrypt key header.cipher.nonce aad body)
      .authenticationFailed
    let bytes ← encodeV4 X header sealed
    if bytes.length > wholeFileCap then .error (.corruptFile "payload too large")
    else .ok bytes

/-- `decrypt_secret`. -/
def decryptSecret (X : Externals) (parsed : ParsedFile) (expectedId : Option KeystoreId)
    (password : List UInt8) : Except KeystoreError SecretPayload := do
  validateV4Password password
  if expectedId.any (fun id => parsed.header.keystoreId != id.value) then
    .error (.corruptFile "authenticated keystore id does not match the requested id")
  else do
    let aad ← authenticatedBytes X parsed.header
    let key ← deriveKey X password parsed.header.kdf
    let body ← okOr
      (X.aesGcmDecrypt key parsed.header.cipher.nonce aad parsed.ciphertext) .authenticationFailed
    SecretPayload.fromBytes parsed.header.kind body

/-- What the bytes of a file give under an id and a password: `read_capped`, `parse_v4` and
`decrypt_secret` in a row. -/
def openFile (X : Externals) (bytes : List UInt8) (id : KeystoreId) (password : List UInt8) :
    Except KeystoreError SecretPayload :=
  if bytes.length > wholeFileCap then .error (.corruptFile "file too large")
  else do
    let parsed ← parseV4 X bytes
    decryptSecret X parsed (some id) password

/-! ## What the checks let through -/

section Inversion

variable {X : Externals} {id : KeystoreId} {password : List UInt8} {payload : SecretPayload}

lemma validateV4Password_eq_ok_iff :
    validateV4Password password = .ok () ↔ password ≠ [] ∧ password.length ≤ passwordCap := by
  rw [validateV4Password, guard_eq_ok_iff]
  simp

lemma deriveKey_eq_ok_iff {kdf : KdfParams} {key : FixedBytes 32} :
    deriveKey X password kdf = .ok key ↔
      validateV4Password password = .ok () ∧ kdf.validate = .ok () ∧
        X.argon2Params kdf.memoryKib kdf.iterations kdf.parallelism kdf.outputLen = .ok () ∧
        X.argon2Hash kdf.memoryKib kdf.iterations kdf.parallelism kdf.outputLen password
          kdf.salt = .ok key := by
  simp only [deriveKey, check_bind_eq_ok_iff, mapError_eq_ok_iff]

/-- When a parsed file opens, with or without an id it has to have. -/
lemma decryptSecret_option_eq_ok_iff {parsed : ParsedFile} {expectedId : Option KeystoreId} :
    decryptSecret X parsed expectedId password = .ok payload ↔
      (∀ id ∈ expectedId, parsed.header.keystoreId = id.value) ∧
        ∃ aad, authenticatedBytes X parsed.header = .ok aad ∧
          ∃ key, deriveKey X password parsed.header.kdf = .ok key ∧
            ∃ body, X.aesGcmDecrypt key parsed.header.cipher.nonce aad parsed.ciphertext =
                some body ∧
              SecretPayload.fromBytes parsed.header.kind body = .ok payload := by
  have hany : ¬expectedId.any (fun id => parsed.header.keystoreId != id.value) = true ↔
      ∀ id ∈ expectedId, parsed.header.keystoreId = id.value := by
    cases expectedId <;> simp
  simp only [decryptSecret, bind_eq_ok_iff, guard_eq_ok_iff, okOr_eq_ok_iff, hany]
  constructor
  · rintro ⟨-, -, hid, h⟩
    exact ⟨hid, h⟩
  · rintro ⟨hid, aad, haad, key, hkey, h⟩
    exact ⟨(), (deriveKey_eq_ok_iff.mp hkey).1, hid, aad, haad, key, hkey, h⟩

/-- When a parsed file opens. -/
lemma decryptSecret_eq_ok_iff {parsed : ParsedFile} :
    decryptSecret X parsed (some id) password = .ok payload ↔
      parsed.header.keystoreId = id.value ∧
        ∃ aad, authenticatedBytes X parsed.header = .ok aad ∧
          ∃ key, deriveKey X password parsed.header.kdf = .ok key ∧
            ∃ body, X.aesGcmDecrypt key parsed.header.cipher.nonce aad parsed.ciphertext =
                some body ∧
              SecretPayload.fromBytes parsed.header.kind body = .ok payload := by
  rw [decryptSecret_option_eq_ok_iff]
  simp only [Option.mem_def, Option.some.injEq, forall_eq']

/-- When the bytes of a file open. -/
lemma openFile_eq_ok_iff {bytes : List UInt8} :
    openFile X bytes id password = .ok payload ↔
      bytes.length ≤ wholeFileCap ∧
        ∃ parsed, parseV4 X bytes = .ok parsed ∧
          decryptSecret X parsed (some id) password = .ok payload := by
  rw [openFile, guard_eq_ok_iff, bind_eq_ok_iff, Nat.not_lt]

/-- What `encrypt_secret` has done when it succeeds. -/
lemma encryptSecret_eq_ok_iff {draws : Draws} {kdf : KdfParams} {bytes : List UInt8} :
    encryptSecret X draws kdf payload password id = .ok bytes ↔
      validateV4Password password = .ok () ∧
      ∃ salt, draws.salt = some salt ∧ ∃ nonce, draws.nonce = some nonce ∧
        ∃ aad, authenticatedBytes X
            ⟨id.value, payload.kind, { kdf with salt := salt }, ⟨nonce, aesGcmTagLen⟩⟩ = .ok aad ∧
          payload.intoBytes.length + aesGcmTagLen ≤ encryptedBodyCap ∧
          ∃ key, deriveKey X password { kdf with salt := salt } = .ok key ∧
            ∃ sealed, X.aesGcmEncrypt key nonce aad payload.intoBytes = some sealed ∧
              encodeV4 X ⟨id.value, payload.kind, { kdf with salt := salt },
                ⟨nonce, aesGcmTagLen⟩⟩ sealed = .ok bytes ∧
              bytes.length ≤ wholeFileCap := by
  simp only [encryptSecret, randomBytes, bind_eq_ok_iff, guard_eq_ok_iff, okOr_eq_ok_iff,
    Nat.not_lt, Except.ok.injEq, gt_iff_lt]
  constructor
  · rintro ⟨⟨⟩, hp, salt, hs, nonce, hn, aad, ha, hl, key, hk, sealed, hc, b, hb, hbl, rfl⟩
    exact ⟨hp, salt, hs, nonce, hn, aad, ha, hl, key, hk, sealed, hc, hb, hbl⟩
  · rintro ⟨hp, salt, hs, nonce, hn, aad, ha, hl, key, hk, sealed, hc, hb, hbl⟩
    exact ⟨(), hp, salt, hs, nonce, hn, aad, ha, hl, key, hk, sealed, hc, bytes, hb, hbl, rfl⟩

end Inversion

/-! ## A sealed secret opens to itself -/

lemma decodeHexField_encodeHex (bytes : List UInt8) :
    decodeHexField (encodeHex bytes) = .ok bytes := by
  rw [decodeHexField, decodeHexPairs_encodeHex]
  rfl

lemma decodeHexFixed_encodeHex {n : ℕ} (message : String) (bytes : FixedBytes n) :
    decodeHexFixed n message (encodeHex bytes.1) = .ok bytes := by
  rw [decodeHexFixed, decodeHexField_encodeHex, ok_bind, dif_pos bytes.2]

/-- The fields of a file are parsed back to its header and ciphertext, provided these pass the
checks of the reader. -/
theorem parseV4_of_fromSliceV4 {X : Externals} {header : Header} {ciphertext bytes : List UInt8}
    (hfile : X.fromSliceV4 bytes = .ok (fileOf header ciphertext))
    (hh : validateHeader header = .ok ()) (hmin : header.cipher.tagLen ≤ ciphertext.length)
    (hmax : ciphertext.length ≤ encryptedBodyCap) :
    parseV4 X bytes = .ok ⟨header, ciphertext⟩ := by
  simp only [parseV4, hfile, fileOf, kdfToWire, cipherToWire, Except.mapError, ok_bind,
    SecretKind.fromStr_asRef, okOr_some, decodeHexFixed_encodeHex, decodeHexField_encodeHex,
    ne_eq, not_true_eq_false, if_false, hh]
  rw [if_neg (Nat.not_lt.mpr hmin), if_neg (Nat.not_lt.mpr hmax)]

/-- A written file is parsed back to its header and ciphertext. -/
lemma parseV4_encodeV4 {X : Externals} (hX : X.Lawful) {header : Header}
    {ciphertext bytes : List UInt8} (hb : encodeV4 X header ciphertext = .ok bytes)
    (hh : validateHeader header = .ok ()) (hmin : header.cipher.tagLen ≤ ciphertext.length)
    (hmax : ciphertext.length ≤ encryptedBodyCap) :
    parseV4 X bytes = .ok ⟨header, ciphertext⟩ :=
  parseV4_of_fromSliceV4 (hX.json_round_trip (mapError_eq_ok_iff.mp hb)) hh hmin hmax

/-- A header with a key passes the checks of the reader. -/
lemma validateHeader_of_deriveKey {X : Externals} {password : List UInt8} {kdf : KdfParams}
    {key : FixedBytes 32} (id : KeystoreId) (kind : SecretKind) (nonce : FixedBytes 12)
    (hkey : deriveKey X password kdf = .ok key) :
    validateHeader ⟨id.value, kind, kdf, ⟨nonce, aesGcmTagLen⟩⟩ = .ok () := by
  simp only [validateHeader, KeystoreId.parse_value, Except.mapError, ok_bind,
    (deriveKey_eq_ok_iff.mp hkey).2.1]
  rfl

/-- What `encrypt_secret` writes opens, under the same id and password, to the secret it was
given. -/
theorem openFile_encryptSecret {X : Externals} (hX : X.Lawful) {draws : Draws} {kdf : KdfParams}
    {payload : SecretPayload} {password bytes : List UInt8} {id : KeystoreId}
    (h : encryptSecret X draws kdf payload password id = .ok bytes) :
    openFile X bytes id password = .ok payload ∧
      ∃ parsed, parseV4 X bytes = .ok parsed ∧
        metaFromHeader parsed.header = ⟨id.value, payload.kind, versionV4⟩ := by
  obtain ⟨-, salt, -, nonce, -, aad, haad, hlen, key, hkey, sealed, hseal, hb, hcap⟩ :=
    encryptSecret_eq_ok_iff.mp h
  obtain ⟨sealed', hseal', hslen, hopen⟩ := hX.gcm_seal key nonce aad hlen
  obtain rfl : sealed = sealed' := by simpa [hseal] using hseal'
  have hheader := validateHeader_of_deriveKey id payload.kind nonce hkey
  have hparsed := parseV4_encodeV4 hX hb hheader (by simp only; omega) (by omega)
  refine ⟨openFile_eq_ok_iff.mpr ⟨hcap, _, hparsed, ?_⟩, _, hparsed, rfl⟩
  rw [decryptSecret_eq_ok_iff]
  exact ⟨rfl, aad, haad, key, hkey, _, hopen, payload.fromBytes_intoBytes⟩

/-! ## Corrupt files -/

/-- The cipher and key derivation are ideal on a file: the passwords that open it all give
the same key. -/
def OneKey (X : Externals) (bytes : List UInt8) : Prop :=
  ∀ {parsed aad password password' key key' plain plain'}, parseV4 X bytes = .ok parsed →
    authenticatedBytes X parsed.header = .ok aad →
    deriveKey X password parsed.header.kdf = .ok key →
    deriveKey X password' parsed.header.kdf = .ok key' →
    X.aesGcmDecrypt key parsed.header.cipher.nonce aad parsed.ciphertext = some plain →
    X.aesGcmDecrypt key' parsed.header.cipher.nonce aad parsed.ciphertext = some plain' →
    key = key'

/-- A file found corrupt under one password opens under none. The only corruption found after
the key fits is a mnemonic that is no text, and no other key opens the file then. -/
theorem not_opens_of_corrupt {X : Externals} (hX : X.Lawful) {bytes : List UInt8}
    (hone : OneKey X bytes) {id : KeystoreId} {password password' : List UInt8}
    {e : KeystoreError} (h : openFile X bytes id password = .error e) (he : e.IsCorrupt)
    {payload : SecretPayload} : openFile X bytes id password' ≠ .ok payload := by
  intro hok
  obtain ⟨message, rfl⟩ := he
  obtain ⟨hcap, parsed, hparsed, hdec⟩ := openFile_eq_ok_iff.mp hok
  obtain ⟨hid, aad, haad, key', hkey', body', hbody', hpayload⟩ := decryptSecret_eq_ok_iff.mp hdec
  obtain ⟨-, hkdf, hparams, -⟩ := deriveKey_eq_ok_iff.mp hkey'
  rw [openFile, if_neg (Nat.not_lt.mpr hcap), hparsed, ok_bind, decryptSecret] at h
  by_cases hpw : validateV4Password password = .ok ()
  · obtain ⟨hne, hlen⟩ := validateV4Password_eq_ok_iff.mp hpw
    obtain ⟨key, hhash⟩ := hX.argon2_total parsed.header.kdf.salt hparams hne hlen
    have hkey : deriveKey X password parsed.header.kdf = .ok key :=
      deriveKey_eq_ok_iff.mpr ⟨hpw, hkdf, hparams, hhash⟩
    simp only [hpw, ok_bind, Option.any_some, hid, bne_self_eq_false, Bool.false_eq_true,
      if_false, haad, hkey] at h
    cases hbody : X.aesGcmDecrypt key parsed.header.cipher.nonce aad parsed.ciphertext with
    | none => simp [hbody, okOr, bind, Except.bind] at h
    | some body =>
      obtain rfl := hone hparsed haad hkey hkey' hbody hbody'
      obtain rfl : body = body' := by simpa [hbody] using hbody'
      rw [hbody, okOr_some, ok_bind, hpayload] at h
      cases h
  · -- A refused password is reported as invalid input.
    have hbad : validateV4Password password = .error (.invalidInput "password input") := by
      rw [validateV4Password] at hpw ⊢
      split at hpw
      · rw [if_pos ‹_›]
      · exact absurd rfl hpw
    rw [hbad] at h
    cases h

/-- Under any two passwords that open it, a file holds the same secret. -/
lemma openFile_unique {X : Externals} {bytes : List UInt8} (hone : OneKey X bytes)
    {id : KeystoreId} {password password' : List UInt8} {payload payload' : SecretPayload}
    (h : openFile X bytes id password = .ok payload)
    (h' : openFile X bytes id password' = .ok payload') : payload = payload' := by
  obtain ⟨-, parsed, hparsed, hdec⟩ := openFile_eq_ok_iff.mp h
  obtain ⟨-, aad, haad, key, hkey, body, hbody, hpayload⟩ := decryptSecret_eq_ok_iff.mp hdec
  obtain ⟨-, parsed', hparsed', hdec'⟩ := openFile_eq_ok_iff.mp h'
  obtain rfl : parsed = parsed' := by simpa [hparsed] using hparsed'
  obtain ⟨-, aad', haad', key', hkey', body', hbody', hpayload'⟩ := decryptSecret_eq_ok_iff.mp hdec'
  obtain rfl : aad = aad' := by simpa [haad] using haad'
  obtain rfl := hone hparsed haad hkey hkey' hbody hbody'
  obtain rfl : body = body' := by simpa [hbody] using hbody'
  simpa [hpayload] using hpayload'

/-! ## Sealing does not depend on what is drawn -/

/-- If a secret can be sealed with one salt and nonce, it can be sealed with any. -/
theorem encryptSecret_draws {X : Externals} (hX : X.Lawful) {draws draws' : Draws}
    {kdf : KdfParams} {payload : SecretPayload} {password bytes : List UInt8} {id : KeystoreId}
    (h : encryptSecret X draws kdf payload password id = .ok bytes)
    (hsalt : draws'.salt.isSome) (hnonce : draws'.nonce.isSome) :
    ∃ bytes', encryptSecret X draws' kdf payload password id = .ok bytes' := by
  obtain ⟨hpw, salt, -, nonce, -, aad, -, hlen, key, hkey, sealed, hseal, hb, hcap⟩ :=
    encryptSecret_eq_ok_iff.mp h
  obtain ⟨salt', hsalt'⟩ := Option.isSome_iff_exists.mp hsalt
  obtain ⟨nonce', hnonce'⟩ := Option.isSome_iff_exists.mp hnonce
  obtain ⟨-, hkdf, hparams, -⟩ := deriveKey_eq_ok_iff.mp hkey
  obtain ⟨hne, hpwlen⟩ := validateV4Password_eq_ok_iff.mp hpw
  obtain ⟨key', hhash'⟩ := hX.argon2_total salt' hparams hne hpwlen
  obtain ⟨aad', haad'⟩ := hX.aad_writes ⟨versionV4, id.value, payload.kind.asRef,
    kdfToWire { kdf with salt := salt' }, cipherToWire ⟨nonce', aesGcmTagLen⟩⟩
  obtain ⟨sealed', hseal', hslen', -⟩ := hX.gcm_seal key' nonce' aad' hlen
  obtain ⟨sealed₀, hseal₀, hslen₀, -⟩ := hX.gcm_seal key nonce aad hlen
  obtain rfl : sealed = sealed₀ := by simpa [hseal] using hseal₀
  obtain ⟨bytes', hb'⟩ := hX.json_writes (fileOf ⟨id.value, payload.kind,
    { kdf with salt := salt' }, ⟨nonce', aesGcmTagLen⟩⟩ sealed')
  have hshape : FileV4.SameShape
      (fileOf ⟨id.value, payload.kind, { kdf with salt := salt' }, ⟨nonce', aesGcmTagLen⟩⟩ sealed')
      (fileOf ⟨id.value, payload.kind, { kdf with salt := salt }, ⟨nonce, aesGcmTagLen⟩⟩
        sealed) :=
    ⟨rfl, rfl, rfl, rfl, rfl, sameHexLength_encodeHex (by rw [salt'.2, salt.2]),
      sameHexLength_encodeHex (by rw [nonce'.2, nonce.2]),
      sameHexLength_encodeHex (by rw [hslen', hslen₀])⟩
  have hlen' := hX.json_length hshape hb' (mapError_eq_ok_iff.mp hb)
  refine ⟨bytes', encryptSecret_eq_ok_iff.mpr ⟨hpw, salt', hsalt', nonce', hnonce', aad',
    mapError_eq_ok_iff.mpr haad', hlen, key', ?_, sealed', hseal',
    mapError_eq_ok_iff.mpr hb', by omega⟩⟩
  exact deriveKey_eq_ok_iff.mpr ⟨hpw, hkdf, hparams, hhash'⟩

end GemCore.Keystore
