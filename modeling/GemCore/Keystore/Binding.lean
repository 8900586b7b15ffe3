import GemCore.Keystore.FileText
import GemCore.Keystore.Reference

/-!
# What a v4 file is bound to

The header of a v4 file is authenticated with its ciphertext. With the JSON library as it is
documented, a written file is read back as it was, and what is authenticated determines the header.
With an ideal key derivation and an ideal cipher on top, a file that opens says what a sealed file
said, so that no edit of the file changes the secret that it gives.

## Main definitions

* `Externals.WritesJson` — the JSON library.
* `Sealing` — a call of `encrypt_secret`.
* `IdealAead`, `IdealKdf` — the ideal libraries.

## Main results

* `file_spec` — a written file, how long it is, and what it is read as.
* `authenticatedBytes_inj` — the authenticated bytes determine the header.
* `exists_sealing_of_opens` — a file that opens holds what was sealed.
* `binding_spec` — files bind their header.
-/

namespace GemCore.Keystore

open Lib

/-- The JSON library writes the files and their authenticated parts as documents, and reads a
written file back. -/
structure Externals.WritesJson (X : Externals) : Prop where
  /-- `serde_json::to_vec_pretty` of a file. -/
  toVecPretty : ∀ {file : FileV4}, file.Plain → X.toVecPretty file = .ok file.json.toVecPretty
  /-- `serde_json::to_vec` of the authenticated part of a file. -/
  toVec : ∀ {authenticated : AuthenticatedV4}, authenticated.Plain →
    X.toVec authenticated = .ok authenticated.json.toVec
  /-- `serde_json::from_slice` of a written file. -/
  fromSliceV4 : ∀ {file : FileV4}, file.Plain → X.fromSliceV4 file.json.toVecPretty = .ok file

variable {X : Externals}

/-! ## Files -/

/-- What `encode_v4` writes. -/
lemma encodeV4_eq (hX : X.WritesJson) {header : Header} (h : validateHeader header = .ok ())
    (ciphertext : List UInt8) :
    encodeV4 X header ciphertext = .ok (fileOf header ciphertext).json.toVecPretty := by
  rw [encodeV4, hX.toVecPretty (plain_fileOf h ciphertext)]
  rfl

/-- **A written file**, how long it is, and what it is read as. -/
theorem file_spec (hX : X.WritesJson) {header : Header} {ciphertext : List UInt8}
    (h : validateHeader header = .ok ()) (hmin : header.cipher.tagLen ≤ ciphertext.length)
    (hmax : ciphertext.length ≤ encryptedBodyCap) :
    ∃ file, encodeV4 X header ciphertext = .ok file ∧ parseV4 X file = .ok ⟨header, ciphertext⟩ ∧
      file.length = fileOverhead header + 2 * ciphertext.length := by
  refine ⟨_, encodeV4_eq hX h ciphertext, ?_, length_fileOf h ciphertext⟩
  exact parseV4_of_fromSliceV4 (hX.fromSliceV4 (plain_fileOf h ciphertext)) h hmin hmax

/-- A parsed file has a header that passes the checks. -/
lemma validateHeader_of_parseV4 {bytes : List UInt8} {parsed : ParsedFile}
    (h : parseV4 X bytes = .ok parsed) : validateHeader parsed.header = .ok () := by
  simp only [parseV4, bind_eq_ok_iff, guard_eq_ok_iff, Except.ok.injEq] at h
  obtain ⟨file, -, -, kind, -, -, -, salt, -, nonce, -, ciphertext, -, ⟨⟩, hheader, -, -, rfl⟩ := h
  exact hheader

/-! ## The authenticated part -/

/-- What is authenticated of a file. -/
lemma authenticatedBytes_eq (hX : X.WritesJson) {header : Header}
    (h : validateHeader header = .ok ()) :
    authenticatedBytes X header = .ok header.authenticated.json.toVec := by
  rw [authenticatedBytes, ← Header.authenticated, hX.toVec (plain_authenticated h)]
  rfl

/-- The authenticated part keeps every field of the header. -/
lemma Header.authenticated_inj {a b : Header} : a.authenticated = b.authenticated ↔ a = b := by
  refine ⟨fun h => ?_, fun h => h ▸ rfl⟩
  have hhex {n : ℕ} {x y : FixedBytes n} (hxy : encodeHex x.1 = encodeHex y.1) : x = y := by
    have hread := decodeHexPairs_encodeHex x.1
    rw [hxy, decodeHexPairs_encodeHex] at hread
    exact Subtype.ext (Option.some.inj hread).symm
  have hkind {k l : SecretKind} (hkl : k.asRef = l.asRef) : k = l := by
    have hread := SecretKind.fromStr_asRef k
    rw [hkl, SecretKind.fromStr_asRef] at hread
    exact (Option.some.inj hread).symm
  obtain ⟨id, kind, ⟨memoryKib, iterations, parallelism, salt, outputLen⟩, ⟨nonce, tagLen⟩⟩ := a
  obtain ⟨id', kind', ⟨memoryKib', iterations', parallelism', salt', outputLen'⟩,
    ⟨nonce', tagLen'⟩⟩ := b
  simp only [authenticated, kdfToWire, cipherToWire, AuthenticatedV4.mk.injEq, KdfV4.mk.injEq,
    CipherV4.mk.injEq, true_and] at h
  obtain ⟨hid, hk, ⟨hmemory, hiterations, hparallelism, hsalt, houtput⟩, hnonce, htag⟩ := h
  rw [hid, hkind hk, hmemory, hiterations, hparallelism, hhex hsalt, houtput, hhex hnonce, htag]

/-- **The authenticated bytes determine the header.** -/
theorem authenticatedBytes_inj (hX : X.WritesJson) {a b : Header}
    (ha : validateHeader a = .ok ()) (hb : validateHeader b = .ok ()) :
    authenticatedBytes X a = authenticatedBytes X b ↔ a = b := by
  rw [authenticatedBytes_eq hX ha, authenticatedBytes_eq hX hb, Except.ok.injEq, Json.toVec_eq_iff,
    AuthenticatedV4.write_inj (plain_authenticated ha) (plain_authenticated hb),
    Header.authenticated_inj]

/-! ## Ideal libraries -/

/-- A call of `encrypt_secret`. -/
structure Sealing where
  draws : Draws
  defaultKdf : KdfParams
  payload : SecretPayload
  password : List UInt8
  id : KeystoreId

/-- What the call returns. -/
def Sealing.run (X : Externals) (s : Sealing) : Except KeystoreError (List UInt8) :=
  encryptSecret X s.draws s.defaultKdf s.payload s.password s.id

/-- The header the call builds. -/
def Sealing.header (s : Sealing) (salt : FixedBytes 16) (nonce : FixedBytes 12) : Header :=
  ⟨s.id.value, s.payload.kind, { s.defaultKdf with salt := salt }, ⟨nonce, aesGcmTagLen⟩⟩

/-- What the call hands to the cipher. -/
def Sealing.Encrypts (X : Externals) (s : Sealing) (key : FixedBytes 32)
    (nonce : FixedBytes 12) (aad body : List UInt8) : Prop :=
  s.draws.nonce = some nonce ∧ s.payload.intoBytes = body ∧
    ∃ salt, s.draws.salt = some salt ∧
      deriveKey X s.password (s.header salt nonce).kdf = .ok key ∧
      authenticatedBytes X (s.header salt nonce) = .ok aad

/-- An ideal authenticated cipher: it appends a tag, and under a key, a nonce and additional data it
opens nothing but what a call has sealed under these. -/
structure IdealAead (X : Externals) (sealings : List Sealing) : Prop where
  length_sealed : ∀ {key nonce aad body sealed},
    X.aesGcmEncrypt key nonce aad body = some sealed → sealed.length = body.length + aesGcmTagLen
  sealed_of_opens : ∀ {key nonce aad sealed body},
    X.aesGcmDecrypt key nonce aad sealed = some body →
      ∃ s ∈ sealings, s.Encrypts X key nonce aad body ∧
        X.aesGcmEncrypt key nonce aad body = some sealed

/-- An ideal key derivation: with the same parameters and salt, two of the passwords in use have
different keys. -/
def IdealKdf (X : Externals) (passwords : List (List UInt8)) : Prop :=
  ∀ {m t p l salt key}, ∀ a ∈ passwords, ∀ b ∈ passwords,
    X.argon2Hash m t p l a salt = .ok key → X.argon2Hash m t p l b salt = .ok key → a = b

/-- **A file that opens holds what was sealed**, under the same password and id. -/
theorem exists_sealing_of_opens (hX : X.WritesJson) {sealings : List Sealing}
    (hruns : ∀ s ∈ sealings, ∃ file, s.run X = .ok file) (haead : IdealAead X sealings)
    {passwords : List (List UInt8)} (hin : ∀ s ∈ sealings, s.password ∈ passwords)
    (hkdf : IdealKdf X passwords) {bytes password : List UInt8} (hpassword : password ∈ passwords)
    {expectedId : Option KeystoreId} {parsed : ParsedFile} {payload : SecretPayload}
    (hparse : parseV4 X bytes = .ok parsed)
    (hopen : decryptSecret X parsed expectedId password = .ok payload) :
    ∃ s ∈ sealings, s.password = password ∧ s.payload = payload ∧
      parsed.header.keystoreId = s.id.value ∧ parsed.header.kind = payload.kind ∧
      (∀ id ∈ expectedId, id = s.id) ∧
      ∃ file, s.run X = .ok file ∧ parseV4 X file = .ok parsed := by
  obtain ⟨hexpected, aad, haad, key, hkey, body, hbody, hpayload⟩ :=
    decryptSecret_option_eq_ok_iff.mp hopen
  obtain ⟨s, hs, ⟨hnonce, rfl, salt, hsalt, hkey', haad'⟩, hsealed⟩ := haead.sealed_of_opens hbody
  obtain ⟨file, hfile⟩ := hruns s hs
  obtain ⟨-, salt', hsalt', nonce', hnonce', aad', haadrun, hlength, key', hkeyrun, sealed',
    hsealed', hwrite, -⟩ := encryptSecret_eq_ok_iff.mp hfile
  obtain rfl := Option.some.inj (hsalt'.symm.trans hsalt)
  obtain rfl := Option.some.inj (hnonce'.symm.trans hnonce)
  -- The additional data are the same, so the headers are.
  have hvalid : validateHeader (s.header salt' parsed.header.cipher.nonce) = .ok () :=
    validateHeader_of_deriveKey s.id s.payload.kind _ hkey'
  have hheader : s.header salt' parsed.header.cipher.nonce = parsed.header :=
    (authenticatedBytes_inj hX hvalid (validateHeader_of_parseV4 hparse)).mp (haad'.trans haad.symm)
  -- With the same parameters and salt, the same key needs the same password.
  have hpw : s.password = password := by
    rw [hheader] at hkey'
    exact hkdf s.password (hin s hs) password hpassword (deriveKey_eq_ok_iff.mp hkey').2.2.2
      (deriveKey_eq_ok_iff.mp hkey).2.2.2
  have hkind : s.payload.kind = parsed.header.kind := congrArg Header.kind hheader
  have hid : s.id.value = parsed.header.keystoreId := congrArg Header.keystoreId hheader
  have hload : s.payload = payload := by
    rw [← hkind, SecretPayload.fromBytes_intoBytes] at hpayload
    exact Except.ok.inj hpayload
  -- The call wrote the header with what the cipher gave it, which is the ciphertext.
  obtain rfl : key' = key := Except.ok.inj (hkeyrun.symm.trans hkey')
  obtain rfl : aad' = aad := Except.ok.inj (haadrun.symm.trans haad')
  obtain rfl : sealed' = parsed.ciphertext := Option.some.inj (hsealed'.symm.trans hsealed)
  have hlen := haead.length_sealed hsealed
  obtain ⟨file', hfile', hparsed, -⟩ :=
    @file_spec X hX _ parsed.ciphertext hvalid (hlen ▸ Nat.le_add_left _ _) (hlen ▸ hlength)
  obtain rfl : file = file' := Except.ok.inj (hwrite.symm.trans hfile')
  refine ⟨s, hs, hpw, hload, hid.symm, hload ▸ hkind.symm, fun id hmem => ?_, file, hfile, ?_⟩
  · exact KeystoreId.ext ((hexpected id hmem).symm.trans hid.symm)
  · rw [hparsed, hheader]

/-- What `encrypt_secret` returns is within the size that is read. -/
lemma Sealing.length_le {s : Sealing} {file : List UInt8} (h : s.run X = .ok file) :
    file.length ≤ wholeFileCap := by
  obtain ⟨-, salt, -, nonce, -, aad, -, -, key, -, sealed, -, -, hcap⟩ :=
    encryptSecret_eq_ok_iff.mp h
  exact hcap

/-- **Files bind their header.** A written file is read as it was written, and takes two bytes for
each byte of its ciphertext and 451 bytes at most for the rest; `encrypt_secret` returns no file
above the size that is read. The authenticated bytes determine the header. And with an ideal key
derivation and an ideal cipher, a file that opens parses as a file that a call has returned under
the same password and id, and gives what this call was given.

**Proof sketch.** Both texts are templates, so the fields are read off them; a file that opens has
the key and the additional data of a sealing, the additional data give the header of the call, and
with it the key gives the password. -/
theorem binding_spec (hX : X.WritesJson) :
    (∀ header ciphertext, validateHeader header = .ok () →
      header.cipher.tagLen ≤ ciphertext.length → ciphertext.length ≤ encryptedBodyCap →
      ∃ file, encodeV4 X header ciphertext = .ok file ∧
        parseV4 X file = .ok ⟨header, ciphertext⟩ ∧
        file.length = fileOverhead header + 2 * ciphertext.length ∧ fileOverhead header ≤ 451) ∧
    (∀ (s : Sealing) file, s.run X = .ok file → file.length ≤ wholeFileCap) ∧
    (∀ a b, validateHeader a = .ok () → validateHeader b = .ok () →
      (authenticatedBytes X a = authenticatedBytes X b ↔ a = b)) ∧
    (∀ sealings passwords, (∀ s ∈ sealings, ∃ file, s.run X = .ok file) → IdealAead X sealings →
      (∀ s ∈ sealings, s.password ∈ passwords) → IdealKdf X passwords →
      ∀ bytes expectedId, ∀ password ∈ passwords, ∀ parsed payload,
        parseV4 X bytes = .ok parsed →
        decryptSecret X parsed expectedId password = .ok payload →
        ∃ s ∈ sealings, s.password = password ∧ s.payload = payload ∧
          parsed.header.keystoreId = s.id.value ∧ parsed.header.kind = payload.kind ∧
          (∀ id ∈ expectedId, id = s.id) ∧
          ∃ file, s.run X = .ok file ∧ parseV4 X file = .ok parsed) := by
  refine ⟨fun header ciphertext h hmin hmax => ?_, fun s file h => s.length_le h,
    fun a b ha hb => authenticatedBytes_inj hX ha hb, ?_⟩
  · obtain ⟨file, hfile, hparsed, hlength⟩ := file_spec hX h hmin hmax
    exact ⟨file, hfile, hparsed, hlength, fileOverhead_le h⟩
  · intro sealings passwords hruns haead hin hkdf bytes expectedId password hpassword parsed payload
      hparse hopen
    exact exists_sealing_of_opens hX hruns haead hin hkdf hpassword hparse hopen

/-! ## One file -/

/-- A call with a short private key. -/
def sampleSealing : Sealing where
  draws := ⟨some (.zeros 16), some (.zeros 12), referenceId "", referenceId ""⟩
  defaultKdf := ⟨19456, 2, 1, .zeros 16, 32⟩
  payload := .privateKey [1, 2, 3]
  password := [112, 119]
  id := referenceId ""

/-- The header of the call. -/
def sampleHeader : Header := sampleSealing.header (.zeros 16) (.zeros 12)

/-- The key of the call. -/
def sampleKey : FixedBytes 32 := referenceKey sampleSealing.password

/-- The reference implementation with files in JSON and a cipher that opens what this call has
sealed. -/
def jsonReference : Externals :=
  { reference with
    toVecPretty := fun file => .ok file.json.toVecPretty
    toVec := fun authenticated => .ok authenticated.json.toVec
    fromSliceV4 := fun bytes =>
      okOr ((fromUtf8 bytes).bind fun text => FileV4.ofText text.toList) "invalid file"
    aesGcmDecrypt := fun key nonce aad sealed =>
      if key = sampleKey ∧ nonce = .zeros 12 ∧ aad = sampleHeader.authenticated.json.toVec ∧
          sealed = [1, 2, 3] ++ referenceTag key then
        some [1, 2, 3]
      else none }

lemma jsonReference_writesJson : jsonReference.WritesJson where
  toVecPretty _ := rfl
  toVec _ := rfl
  fromSliceV4 {file} h := by
    have htext : fromUtf8 file.json.toVecPretty = some (String.ofList (file.json.writePretty 0)) :=
      fromUtf8_utf8 _
    simp only [jsonReference, htext, Option.bind_some, String.toList_ofList,
      FileV4.ofText_writePretty h, okOr_some]

lemma validateHeader_sampleHeader : validateHeader sampleHeader = .ok () := by decide

lemma deriveKey_sampleHeader :
    deriveKey jsonReference sampleSealing.password sampleHeader.kdf = .ok sampleKey :=
  deriveKey_eq_ok_iff.mpr ⟨by decide, by decide, rfl, rfl⟩

/-- What the cipher gives the call. -/
def sampleSealed : List UInt8 := [1, 2, 3] ++ referenceTag sampleKey

lemma length_sampleSealed : sampleSealed.length = 19 := rfl

/-- The call returns a file. -/
lemma run_sampleSealing : ∃ file, sampleSealing.run jsonReference = .ok file := by
  have hlength := length_fileOf validateHeader_sampleHeader sampleSealed
  have hover := fileOverhead_le validateHeader_sampleHeader
  have hcap : (fileOf sampleHeader sampleSealed).json.toVecPretty.length ≤ wholeFileCap := by
    rw [hlength, length_sampleSealed]
    exact Nat.le_trans (Nat.add_le_add_right hover _) (by decide)
  exact ⟨_, encryptSecret_eq_ok_iff.mpr ⟨by decide, _, rfl, _, rfl, _,
    authenticatedBytes_eq jsonReference_writesJson validateHeader_sampleHeader, by decide, _,
    deriveKey_sampleHeader, _, rfl,
    encodeV4_eq jsonReference_writesJson validateHeader_sampleHeader sampleSealed, hcap⟩⟩

/-- The cipher is ideal for this call. -/
lemma idealAead_jsonReference : IdealAead jsonReference [sampleSealing] where
  length_sealed {key nonce aad body sealed} h := by
    obtain rfl : body ++ referenceTag key = sealed := Option.some.inj h
    rw [List.length_append, length_referenceTag]
    rfl
  sealed_of_opens {key nonce aad sealed body} h := by
    simp only [jsonReference] at h
    split_ifs at h with hmatch
    obtain ⟨rfl, rfl, haad, rfl⟩ := hmatch
    obtain rfl := Option.some.inj h
    refine ⟨sampleSealing, List.mem_singleton_self _, ⟨rfl, rfl, _, rfl, deriveKey_sampleHeader, ?_⟩,
      rfl⟩
    rw [haad]
    exact authenticatedBytes_eq jsonReference_writesJson validateHeader_sampleHeader

theorem binding_spec_sample :
    (∃ file, encodeV4 jsonReference sampleHeader sampleSealed = .ok file ∧
      parseV4 jsonReference file = .ok ⟨sampleHeader, sampleSealed⟩ ∧
      file.length ≤ wholeFileCap) ∧
    ∀ bytes parsed payload, parseV4 jsonReference bytes = .ok parsed →
      decryptSecret jsonReference parsed none [112, 119] = .ok payload →
      payload = .privateKey [1, 2, 3] := by
  obtain ⟨hfile, -, -, hopens⟩ := binding_spec jsonReference_writesJson
  constructor
  · obtain ⟨file, hwrite, hparse, hlength, hover⟩ :=
      hfile sampleHeader sampleSealed validateHeader_sampleHeader (by decide) (by decide)
    refine ⟨file, hwrite, hparse, ?_⟩
    rw [hlength, length_sampleSealed]
    exact Nat.le_trans (Nat.add_le_add_right hover _) (by decide)
  · intro bytes parsed payload hparse hopen
    have hkdf : IdealKdf jsonReference [[112, 119]] := by
      intro m t p l salt key a ha b hb _ _
      rw [List.mem_singleton.mp ha, List.mem_singleton.mp hb]
    obtain ⟨s, hs, -, hpayload, -⟩ := hopens [sampleSealing] [[112, 119]]
      (List.forall_mem_singleton.mpr run_sampleSealing) idealAead_jsonReference
      (List.forall_mem_singleton.mpr (List.mem_singleton_self _)) hkdf bytes none [112, 119]
      (List.mem_singleton_self _) parsed payload hparse hopen
    rw [List.mem_singleton.mp hs] at hpayload
    exact hpayload.symm

/-- The longest ciphertext that is read does not fit into a file that is read. -/
theorem file_exceeds_cap :
    validateHeader sampleHeader = .ok () ∧
      (List.replicate 65536 (0 : UInt8)).length ≤ encryptedBodyCap ∧
      ∃ file, encodeV4 jsonReference sampleHeader (List.replicate 65536 0) = .ok file ∧
        wholeFileCap < file.length := by
  have hpos : 0 < fileOverhead sampleHeader := by
    rw [fileOverhead, FileV4.length_toVecPretty (plain_fileOf validateHeader_sampleHeader _)
      (ascii_parts validateHeader_sampleHeader _)]
    exact Nat.add_pos_left (by decide) _
  have hcap : wholeFileCap = 2 * 65536 := rfl
  refine ⟨validateHeader_sampleHeader, by rw [List.length_replicate]; decide, _,
    encodeV4_eq jsonReference_writesJson validateHeader_sampleHeader _, ?_⟩
  rw [length_fileOf validateHeader_sampleHeader, List.length_replicate, hcap]
  omega

end GemCore.Keystore
