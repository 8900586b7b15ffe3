import GemCore.Keystore.Secret

/-!
# A reference implementation of the libraries

What the keystore relies on about its libraries can be met: this module implements them in
the simplest way that keeps the promises of `Externals.Lawful`, with a readable file format,
a key that is the padded password and a tag that is the key. Runs of the keystore on concrete
files are evaluated over it.

## Main definitions

* `reference` — the libraries.

## Main results

* `reference_lawful` — they keep their promises.
* `reference_oneKey` — and one key at most opens a file.
-/

namespace GemCore.Keystore

open Lib

/-! ## Files -/

/-- A number in unary, closed by a zero byte. -/
def unary (n : ℕ) : List UInt8 := List.replicate n 1 ++ [0]

/-- Read a number in unary. -/
def readUnary : List UInt8 → Option (ℕ × List UInt8)
  | [] => none
  | b :: bytes => if b = 0 then some (0, bytes) else (readUnary bytes).map fun p => (p.1 + 1, p.2)

lemma readUnary_unary (n : ℕ) (rest : List UInt8) :
    readUnary (unary n ++ rest) = some (n, rest) := by
  induction n with
  | zero => rfl
  | succ n ih =>
    have h : unary (n + 1) ++ rest = 1 :: (unary n ++ rest) := rfl
    rw [h, readUnary, if_neg (by decide), ih]
    rfl

/-- The characters of a text, four bytes each. -/
def charBytes : List Char → List UInt8
  | [] => []
  | c :: text => beBytes 4 c.toNat ++ charBytes text

/-- Read a number of characters. -/
def readChars : ℕ → List UInt8 → Option (List Char × List UInt8)
  | 0, bytes => some ([], bytes)
  | n + 1, bytes => do
    let (head, bytes) ← takeBytes 4 bytes
    let (text, bytes) ← readChars n bytes
    some (Char.ofNat (ofBe head) :: text, bytes)

lemma readChars_charBytes (text : List Char) (rest : List UInt8) :
    readChars text.length (charBytes text ++ rest) = some (text, rest) := by
  induction text with
  | nil => rfl
  | cons c text ih =>
    have hc : c.toNat < 256 ^ 4 := by
      have h : c.val.toNat < 2 ^ 32 := c.val.toNat_lt
      exact h
    rw [List.length_cons, readChars, charBytes, List.append_assoc,
      takeBytes_append _ (length_beBytes 4 _)]
    simp only [Option.bind_eq_bind, Option.bind_some, ih, ofBe_beBytes_of_lt hc,
      Char.ofNat_toNat]

lemma length_charBytes (text : List Char) : (charBytes text).length = 4 * text.length := by
  induction text with
  | nil => rfl
  | cons c text ih =>
    simp only [charBytes, List.length_append, length_beBytes, ih, List.length_cons]
    omega

/-- A text with its length in front. -/
def textBytes (text : String) : List UInt8 := unary text.toList.length ++ charBytes text.toList

/-- Read a text. -/
def readText (bytes : List UInt8) : Option (String × List UInt8) := do
  let (n, bytes) ← readUnary bytes
  let (text, bytes) ← readChars n bytes
  some (String.ofList text, bytes)

lemma readText_textBytes (text : String) (rest : List UInt8) :
    readText (textBytes text ++ rest) = some (text, rest) := by
  rw [readText, textBytes, List.append_assoc, readUnary_unary]
  simp only [Option.bind_eq_bind, Option.bind_some, readChars_charBytes, String.ofList_toList]

lemma length_textBytes (text : String) :
    (textBytes text).length = 5 * text.toList.length + 1 := by
  rw [textBytes, unary, List.length_append, List.length_append, List.length_replicate,
    length_charBytes, List.length_singleton]
  omega

/-- The key derivation of a v4 file, field after field. -/
def kdfBytes (kdf : KdfV4) : List UInt8 :=
  textBytes kdf.algorithm ++ (unary kdf.memoryKib ++ (unary kdf.iterations ++
    (unary kdf.parallelism ++ (textBytes kdf.salt ++ unary kdf.outputLen))))

/-- Read the key derivation. -/
def readKdf (bytes : List UInt8) : Option (KdfV4 × List UInt8) := do
  let (algorithm, bytes) ← readText bytes
  let (memoryKib, bytes) ← readUnary bytes
  let (iterations, bytes) ← readUnary bytes
  let (parallelism, bytes) ← readUnary bytes
  let (salt, bytes) ← readText bytes
  let (outputLen, bytes) ← readUnary bytes
  some (⟨algorithm, memoryKib, iterations, parallelism, salt, outputLen⟩, bytes)

lemma readKdf_kdfBytes (kdf : KdfV4) (rest : List UInt8) :
    readKdf (kdfBytes kdf ++ rest) = some (kdf, rest) := by
  simp only [readKdf, kdfBytes, List.append_assoc, readUnary_unary, readText_textBytes,
    Option.bind_eq_bind, Option.bind_some]

/-- The cipher of a v4 file. -/
def cipherBytes (cipher : CipherV4) : List UInt8 :=
  textBytes cipher.algorithm ++ (textBytes cipher.nonce ++ unary cipher.tagLen)

/-- Read the cipher. -/
def readCipher (bytes : List UInt8) : Option (CipherV4 × List UInt8) := do
  let (algorithm, bytes) ← readText bytes
  let (nonce, bytes) ← readText bytes
  let (tagLen, bytes) ← readUnary bytes
  some (⟨algorithm, nonce, tagLen⟩, bytes)

lemma readCipher_cipherBytes (cipher : CipherV4) (rest : List UInt8) :
    readCipher (cipherBytes cipher ++ rest) = some (cipher, rest) := by
  simp only [readCipher, cipherBytes, List.append_assoc, readUnary_unary, readText_textBytes,
    Option.bind_eq_bind, Option.bind_some]

/-- A v4 file. -/
def fileBytes (file : FileV4) : List UInt8 :=
  unary file.version ++ (textBytes file.id ++ (textBytes file.kind ++
    (kdfBytes file.crypto.kdf ++ (cipherBytes file.crypto.cipher ++
    (textBytes file.crypto.ciphertext ++ [])))))

/-- Read what follows the version of a v4 file. -/
def readFileBody (version : ℕ) (bytes : List UInt8) : Option FileV4 := do
  let (id, bytes) ← readText bytes
  let (kind, bytes) ← readText bytes
  let (kdf, bytes) ← readKdf bytes
  let (cipher, bytes) ← readCipher bytes
  let (ciphertext, _) ← readText bytes
  some ⟨version, id, kind, kdf, cipher, ciphertext⟩

/-- Read a v4 file. -/
def readFile (bytes : List UInt8) : Option FileV4 := do
  let (version, bytes) ← readUnary bytes
  readFileBody version bytes

lemma readFile_fileBytes (file : FileV4) : readFile (fileBytes file) = some file := by
  simp only [readFile, readFileBody, fileBytes, readUnary_unary, readText_textBytes,
    readKdf_kdfBytes, readCipher_cipherBytes, Option.bind_eq_bind, Option.bind_some]

lemma version_readFileBody {version : ℕ} {bytes : List UInt8} {file : FileV4}
    (h : readFileBody version bytes = some file) : file.version = version := by
  simp only [readFileBody, Option.bind_eq_bind, Option.bind_eq_some_iff, Option.some.injEq] at h
  obtain ⟨_, -, _, -, _, -, _, -, _, -, rfl⟩ := h
  rfl

/-- A v3 file: its version, its id, the tag of 16 bytes and the key it holds. -/
def readFileV3 (bytes : List UInt8) : Option KeystoreV3 := do
  let (version, bytes) ← readUnary bytes
  let (id, bytes) ← readText bytes
  some ⟨"aes-128-ctr", [], bytes.drop 16, "scrypt", ⟨32, 2, 1, 1, []⟩, bytes.take 16, some id,
    .privateKey, version⟩

/-- The bytes of a v3 file. -/
def fileBytesV3 (id : String) (mac secret : List UInt8) : List UInt8 :=
  unary 3 ++ textBytes id ++ mac ++ secret

/-! ## Keys and ciphers -/

/-- The first 16 bytes of a password, padded with zeros. -/
def pad16 (password : List UInt8) : List UInt8 := (password ++ List.replicate 16 0).take 16

@[simp] lemma length_pad16 (password : List UInt8) : (pad16 password).length = 16 := by
  simp only [pad16, List.length_take, List.length_append, List.length_replicate]
  omega

/-- The key of a password: 16 zeros and the padded password. -/
def referenceKey (password : List UInt8) : FixedBytes 32 :=
  ⟨List.replicate 16 0 ++ pad16 password, by simp⟩

/-- The tag is the second half of the key. -/
def referenceTag (key : FixedBytes 32) : List UInt8 := key.1.drop 16

@[simp] lemma length_referenceTag (key : FixedBytes 32) : (referenceTag key).length = 16 := by
  simp [referenceTag, key.2]

/-- Open a body that ends in the tag of the key. -/
def referenceOpen (key : FixedBytes 32) (body : List UInt8) : Option (List UInt8) :=
  if 16 ≤ body.length ∧ body.drop (body.length - 16) = referenceTag key then
    some (body.take (body.length - 16))
  else none

/-- The ids by name: the length of the name as the last digit. -/
def referenceId (name : String) : KeystoreId :=
  ⟨String.ofList ("00000000-0000-5000-8000-00000000000".toList ++
    [hexChar (name.toList.length % 16)]), by
    have h : ∀ n, n < 16 → isKeystoreId
        ("00000000-0000-5000-8000-00000000000".toList ++ [hexChar n]) = true := by
      decide
    rw [String.toList_ofList]
    exact h _ (Nat.mod_lt _ (by decide))⟩

/-- The reference implementation. -/
def reference : Externals where
  toVecPretty file := .ok (fileBytes file)
  toVec authenticated := .ok (textBytes authenticated.id)
  fromSliceV4 bytes := okOr (readFile bytes) "invalid file"
  fromSliceV3 bytes := okOr (readFileV3 bytes) "invalid file"
  argon2Params _ _ _ _ := .ok ()
  argon2Hash _ _ _ _ password _ := .ok (referenceKey password)
  aesGcmEncrypt key _ _ body := some (body ++ referenceTag key)
  aesGcmDecrypt key _ _ body := referenceOpen key body
  scrypt password _ := .ok (referenceKey password).1
  keccak256 bytes := bytes.take 16
  aes128Ctr _ _ text := some text
  nfkd text := text
  toLowercase text := text
  parseMnemonic text := some [text]
  newV5 := referenceId

lemma length_fileBytes_of_sameShape {f g : FileV4} (h : f.SameShape g) :
    (fileBytes f).length = (fileBytes g).length := by
  have hkdf := h.kdf
  have hcipher := h.cipher
  simp only [KdfV4.mk.injEq, CipherV4.mk.injEq] at hkdf hcipher
  obtain ⟨ha, hm, hi, hp, -, ho⟩ := hkdf
  obtain ⟨hca, -, ht⟩ := hcipher
  simp only [fileBytes, kdfBytes, cipherBytes, List.length_append, length_textBytes, h.version, h.id, h.kind, ha, hm, hi,
    hp, ho, hca, ht, h.salt.2.2, h.nonce.2.2, h.ciphertext.2.2]

lemma referenceOpen_append (key : FixedBytes 32) (body : List UInt8) :
    referenceOpen key (body ++ referenceTag key) = some body := by
  rw [referenceOpen, if_pos]
  · simp
  · simp

/-- The reference implementation keeps the promises the keystore relies on. -/
lemma reference_lawful : reference.Lawful where
  json_writes file := ⟨_, rfl⟩
  aad_writes authenticated := ⟨_, rfl⟩
  json_round_trip := by
    rintro file bytes h
    obtain rfl : fileBytes file = bytes := by simpa [reference] using h
    simp [reference, readFile_fileBytes]
  json_version := by
    rintro bytes file keystore h h'
    have h := okOr_eq_ok_iff.mp h
    have h' := okOr_eq_ok_iff.mp h'
    obtain ⟨⟨version, rest⟩, hu, h⟩ := Option.bind_eq_some_iff.mp h
    obtain ⟨⟨version', rest'⟩, hu', hk⟩ := Option.bind_eq_some_iff.mp h'
    obtain ⟨⟨id, rest''⟩, -, hk⟩ := Option.bind_eq_some_iff.mp hk
    obtain rfl := Option.some.inj hk
    have hv : version = version' := by
      have := hu.symm.trans hu'
      simp_all
    exact (version_readFileBody h).trans hv
  argon2_total salt _ _ _ := ⟨_, rfl⟩
  gcm_seal key nonce aad {body} _ :=
    ⟨_, rfl, by simp [aesGcmTagLen], referenceOpen_append key body⟩
  json_length := by
    intro f g b c h hf hg
    obtain rfl : fileBytes f = b := by simpa [reference] using hf
    obtain rfl : fileBytes g = c := by simpa [reference] using hg
    exact length_fileBytes_of_sameShape h

/-- The tag determines the key, so the passwords that open a file give one key. -/
theorem reference_oneKey (bytes : List UInt8) : OneKey reference bytes := by
  intro parsed aad password password' key key' plain plain' _ _ hkey hkey' hopen hopen'
  have hk (password : List UInt8) {key : FixedBytes 32}
      (h : deriveKey reference password parsed.header.kdf = .ok key) :
      key = referenceKey password := by
    simpa [reference, eq_comm] using (deriveKey_eq_ok_iff.mp h).2.2.2
  obtain rfl := hk password hkey
  obtain rfl := hk password' hkey'
  simp only [reference, referenceOpen] at hopen hopen'
  split at hopen
  · split at hopen'
    · rename_i h h'
      have htag := h.2.symm.trans h'.2
      simp only [referenceTag, referenceKey] at htag
      apply Subtype.ext
      simpa [referenceKey] using htag
    · cases hopen'
  · cases hopen

end GemCore.Keystore
