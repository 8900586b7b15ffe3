import GemCore.Keystore.Secret
import GemCore.Lib.Template
import GemCore.Primitives.JsonText
import Mathlib.Data.UInt

/-!
# The texts of a v4 file

A v4 file and its authenticated part as JSON documents, with the fields in the order of the
structures, and the characters of both: a fixed text with the fields filled in. The fields can be
read off either text, and how long a file is follows from how long its fields are.

## Main definitions

* `FileV4.json`, `AuthenticatedV4.json` — the documents.
* `FileV4.Plain` — numbers that fit and texts without an escape.
* `FileV4.ofText` — the fields of a text.
* `fileOverhead` — how long the file of a header is without its ciphertext.

## Main results

* `FileV4.ofText_writePretty` — the fields are read off the text of a file.
* `AuthenticatedV4.write_inj` — the authenticated text determines its fields.
* `FileV4.length_toVecPretty` — how long a file is.
* `plain_fileOf` — the files that are written have plain fields.
-/

namespace GemCore.Keystore

open Lib

/-! ## Documents -/

/-- An unsigned number of a file. -/
def jsonNat (n : ℕ) : Json := .num (.posInt (.ofNat n))

/-- `Serialize` for `KdfV4`. -/
def KdfV4.json (kdf : KdfV4) : Json :=
  .obj [("algorithm", .str kdf.algorithm), ("memory_kib", jsonNat kdf.memoryKib),
    ("iterations", jsonNat kdf.iterations), ("parallelism", jsonNat kdf.parallelism),
    ("salt", .str kdf.salt), ("output_len", jsonNat kdf.outputLen)]

/-- `Serialize` for `CipherV4`. -/
def CipherV4.json (cipher : CipherV4) : Json :=
  .obj [("algorithm", .str cipher.algorithm), ("nonce", .str cipher.nonce),
    ("tag_len", jsonNat cipher.tagLen)]

/-- `Serialize` for `CryptoV4`. -/
def CryptoV4.json (crypto : CryptoV4) : Json :=
  .obj [("kdf", crypto.kdf.json), ("cipher", crypto.cipher.json),
    ("ciphertext", .str crypto.ciphertext)]

/-- `Serialize` for `FileV4`. -/
def FileV4.json (file : FileV4) : Json :=
  .obj [("version", jsonNat file.version), ("id", .str file.id), ("kind", .str file.kind),
    ("crypto", file.crypto.json)]

/-- `Serialize` for `AuthenticatedV4`. -/
def AuthenticatedV4.json (authenticated : AuthenticatedV4) : Json :=
  .obj [("version", jsonNat authenticated.version), ("id", .str authenticated.id),
    ("kind", .str authenticated.kind), ("kdf", authenticated.kdf.json),
    ("cipher", authenticated.cipher.json)]

/-! ## Fields -/

/-- A text of which nothing is escaped. -/
def PlainText (text : String) : Prop := ∀ c ∈ text.toList, Json.escapeChar c = [c]

instance (text : String) : Decidable (PlainText text) :=
  inferInstanceAs (Decidable (∀ c ∈ text.toList, Json.escapeChar c = [c]))

/-- Numbers of 32 bits and texts of which nothing is escaped. -/
structure KdfV4.Plain (kdf : KdfV4) : Prop where
  algorithm : PlainText kdf.algorithm
  memoryKib : kdf.memoryKib < 2 ^ 32
  iterations : kdf.iterations < 2 ^ 32
  parallelism : kdf.parallelism < 2 ^ 32
  salt : PlainText kdf.salt
  outputLen : kdf.outputLen < 2 ^ 32

/-- A number of 8 bits and texts of which nothing is escaped. -/
structure CipherV4.Plain (cipher : CipherV4) : Prop where
  algorithm : PlainText cipher.algorithm
  nonce : PlainText cipher.nonce
  tagLen : cipher.tagLen < 2 ^ 8

/-- A file with numbers that fit and texts of which nothing is escaped. -/
structure FileV4.Plain (file : FileV4) : Prop where
  version : file.version < 2 ^ 8
  id : PlainText file.id
  kind : PlainText file.kind
  kdf : file.crypto.kdf.Plain
  cipher : file.crypto.cipher.Plain
  ciphertext : PlainText file.crypto.ciphertext

/-- The same for the authenticated part of a file. -/
structure AuthenticatedV4.Plain (authenticated : AuthenticatedV4) : Prop where
  version : authenticated.version < 2 ^ 8
  id : PlainText authenticated.id
  kind : PlainText authenticated.kind
  kdf : authenticated.kdf.Plain
  cipher : authenticated.cipher.Plain

/-- The characters of the fields of the key derivation. -/
def KdfV4.parts (kdf : KdfV4) : List (List Char) :=
  [kdf.algorithm.toList, Nat.toDigits 10 kdf.memoryKib, Nat.toDigits 10 kdf.iterations,
    Nat.toDigits 10 kdf.parallelism, kdf.salt.toList, Nat.toDigits 10 kdf.outputLen]

/-- The characters of the fields of the cipher. -/
def CipherV4.parts (cipher : CipherV4) : List (List Char) :=
  [cipher.algorithm.toList, cipher.nonce.toList, Nat.toDigits 10 cipher.tagLen]

/-- The characters of the fields of a file. -/
def FileV4.parts (file : FileV4) : List (List Char) :=
  Nat.toDigits 10 file.version :: file.id.toList :: file.kind.toList ::
    (file.crypto.kdf.parts ++ (file.crypto.cipher.parts ++ [file.crypto.ciphertext.toList]))

/-- The characters of the fields of the authenticated part. -/
def AuthenticatedV4.parts (authenticated : AuthenticatedV4) : List (List Char) :=
  Nat.toDigits 10 authenticated.version :: authenticated.id.toList :: authenticated.kind.toList ::
    (authenticated.kdf.parts ++ authenticated.cipher.parts)

/-! ## Texts -/

/-- The text of a file around its fields. -/
def fileTemplate : List (List Char × Char) :=
  [("\x7b\n  \"version\": ".toList, ','), ("\n  \"id\": \"".toList, '"'),
    (",\n  \"kind\": \"".toList, '"'),
    (",\n  \"crypto\": \x7b\n    \"kdf\": \x7b\n      \"algorithm\": \"".toList, '"'),
    (",\n      \"memory_kib\": ".toList, ','), ("\n      \"iterations\": ".toList, ','),
    ("\n      \"parallelism\": ".toList, ','), ("\n      \"salt\": \"".toList, '"'),
    (",\n      \"output_len\": ".toList, '\n'),
    ("    \x7d,\n    \"cipher\": \x7b\n      \"algorithm\": \"".toList, '"'),
    (",\n      \"nonce\": \"".toList, '"'), (",\n      \"tag_len\": ".toList, '\n'),
    ("    \x7d,\n    \"ciphertext\": \"".toList, '"')]

/-- The text of the authenticated part around its fields. -/
def authenticatedTemplate : List (List Char × Char) :=
  [("\x7b\"version\":".toList, ','), ("\"id\":\"".toList, '"'), (",\"kind\":\"".toList, '"'),
    (",\"kdf\":\x7b\"algorithm\":\"".toList, '"'), (",\"memory_kib\":".toList, ','),
    ("\"iterations\":".toList, ','), ("\"parallelism\":".toList, ','),
    ("\"salt\":\"".toList, '"'), (",\"output_len\":".toList, '\x7d'),
    (",\"cipher\":\x7b\"algorithm\":\"".toList, '"'), (",\"nonce\":\"".toList, '"'),
    (",\"tag_len\":".toList, '\x7d')]

/-- A number is written in decimal. -/
lemma write_jsonNat {n : ℕ} (h : n < 2 ^ 64) : (jsonNat n).write = Nat.toDigits 10 n := by
  have hn : (UInt64.ofNat n).toNat = n := UInt64.toNat_ofNat_of_lt' h
  rw [jsonNat, Json.write, JsonNumber.text, hn]
  exact Nat.toList_repr

/-- No digit closes a field. -/
lemma notMem_toDigits {c : Char} (n : ℕ) (h : c.isDigit = false) : c ∉ Nat.toDigits 10 n := by
  intro hc
  rw [Decimal.digits_toDigits n c hc] at h
  cases h

/-- A quote is escaped. -/
lemma PlainText.quote_notMem {text : String} (h : PlainText text) : '"' ∉ text.toList := fun hc =>
  absurd (h _ hc) (by decide)

/-- A text without an escape is written between quotes. -/
lemma PlainText.writeString {text : String} (h : PlainText text) :
    Json.writeString text = '"' :: text.toList ++ ['"'] := by
  have hmap : text.toList.flatMap Json.escapeChar = text.toList := by
    rw [List.flatMap_congr h, List.flatMap_singleton']
  rw [Json.writeString, hmap]

set_option maxRecDepth 4000 in
/-- The text of a file. -/
lemma FileV4.writePretty_json {file : FileV4} (h : file.Plain) :
    file.json.writePretty 0 = fill fileTemplate file.parts ++ "\n  \x7d\n\x7d".toList := by
  obtain ⟨hversion, hid, hkind, hkdf, hcipher, hciphertext⟩ := h
  have hnat {n : ℕ} (depth : ℕ) (hn : n < 2 ^ 64) :
      (jsonNat n).writePretty depth = Nat.toDigits 10 n := write_jsonNat hn
  have h8 {n : ℕ} (hn : n < 2 ^ 8) : n < 2 ^ 64 := by omega
  have h32 {n : ℕ} (hn : n < 2 ^ 32) : n < 2 ^ 64 := by omega
  simp only [json, CryptoV4.json, KdfV4.json, CipherV4.json, Json.writePretty, Json.prettyEntries,
    Json.write, hnat _ (h8 hversion), hid.writeString, hkind.writeString,
    hkdf.algorithm.writeString, hnat _ (h32 hkdf.memoryKib), hnat _ (h32 hkdf.iterations),
    hnat _ (h32 hkdf.parallelism), hkdf.salt.writeString, hnat _ (h32 hkdf.outputLen),
    hcipher.algorithm.writeString, hcipher.nonce.writeString, hnat _ (h8 hcipher.tagLen),
    hciphertext.writeString, parts, KdfV4.parts, CipherV4.parts, fileTemplate, fill,
    List.append_assoc, List.cons_append, List.nil_append]
  rfl

set_option maxRecDepth 4000 in
/-- The text of the authenticated part. -/
lemma AuthenticatedV4.write_json {authenticated : AuthenticatedV4} (h : authenticated.Plain) :
    authenticated.json.write =
      fill authenticatedTemplate authenticated.parts ++ "\x7d".toList := by
  obtain ⟨hversion, hid, hkind, hkdf, hcipher⟩ := h
  have h8 {n : ℕ} (hn : n < 2 ^ 8) : n < 2 ^ 64 := by omega
  have h32 {n : ℕ} (hn : n < 2 ^ 32) : n < 2 ^ 64 := by omega
  simp only [json, KdfV4.json, CipherV4.json, Json.write, Json.writeEntries,
    write_jsonNat (h8 hversion), hid.writeString, hkind.writeString,
    hkdf.algorithm.writeString, write_jsonNat (h32 hkdf.memoryKib),
    write_jsonNat (h32 hkdf.iterations), write_jsonNat (h32 hkdf.parallelism),
    hkdf.salt.writeString, write_jsonNat (h32 hkdf.outputLen), hcipher.algorithm.writeString,
    hcipher.nonce.writeString, write_jsonNat (h8 hcipher.tagLen), parts, KdfV4.parts,
    CipherV4.parts, authenticatedTemplate, fill, List.append_assoc, List.cons_append,
    List.nil_append]
  rfl

/-- What closes a field of a file does not occur in it. -/
lemma FileV4.fits_parts {file : FileV4} (h : file.Plain) : Fits fileTemplate file.parts := by
  obtain ⟨-, hid, hkind, hkdf, hcipher, hciphertext⟩ := h
  have hcomma (n : ℕ) : ',' ∉ Nat.toDigits 10 n := notMem_toDigits n rfl
  have hline (n : ℕ) : '\n' ∉ Nat.toDigits 10 n := notMem_toDigits n rfl
  simp only [Fits, fileTemplate, parts, KdfV4.parts, CipherV4.parts, List.cons_append,
    List.nil_append, List.forall₂_cons, hcomma, hline,
    hid.quote_notMem, hkind.quote_notMem, hkdf.algorithm.quote_notMem, hkdf.salt.quote_notMem,
    hcipher.algorithm.quote_notMem, hcipher.nonce.quote_notMem, hciphertext.quote_notMem,
    not_false_eq_true, List.Forall₂.nil, and_self]

/-- What closes a field of the authenticated part does not occur in it. -/
lemma AuthenticatedV4.fits_parts {authenticated : AuthenticatedV4} (h : authenticated.Plain) :
    Fits authenticatedTemplate authenticated.parts := by
  obtain ⟨-, hid, hkind, hkdf, hcipher⟩ := h
  have hcomma (n : ℕ) : ',' ∉ Nat.toDigits 10 n := notMem_toDigits n rfl
  have hbrace (n : ℕ) : '\x7d' ∉ Nat.toDigits 10 n := notMem_toDigits n rfl
  simp only [Fits, authenticatedTemplate, parts, KdfV4.parts, CipherV4.parts,
    List.cons_append, List.nil_append, List.forall₂_cons, hcomma, hbrace, hid.quote_notMem,
    hkind.quote_notMem, hkdf.algorithm.quote_notMem, hkdf.salt.quote_notMem,
    hcipher.algorithm.quote_notMem, hcipher.nonce.quote_notMem, not_false_eq_true,
    List.Forall₂.nil, and_self]

/-! ## Reading a text -/

/-- The fields of a text of a file. -/
def FileV4.ofText (text : List Char) : Option FileV4 :=
  match unfill fileTemplate text with
  | some ([version, id, kind, algorithm, memoryKib, iterations, parallelism, salt, outputLen,
      cipher, nonce, tagLen, ciphertext], _) =>
    some ⟨Decimal.value version, String.ofList id, String.ofList kind,
      ⟨String.ofList algorithm, Decimal.value memoryKib, Decimal.value iterations,
        Decimal.value parallelism, String.ofList salt, Decimal.value outputLen⟩,
      ⟨String.ofList cipher, String.ofList nonce, Decimal.value tagLen⟩,
      String.ofList ciphertext⟩
  | _ => none

/-- The fields are read off the text of a file. -/
lemma FileV4.ofText_writePretty {file : FileV4} (h : file.Plain) :
    ofText (file.json.writePretty 0) = some file := by
  rw [ofText, writePretty_json h, unfill_fill (fits_parts h)]
  simp only [parts, KdfV4.parts, CipherV4.parts, List.cons_append, List.nil_append,
    Decimal.value_toDigits, String.ofList_toList]

/-- The authenticated text determines its fields. -/
lemma AuthenticatedV4.write_inj {a b : AuthenticatedV4} (ha : a.Plain) (hb : b.Plain) :
    a.json.write = b.json.write ↔ a = b := by
  refine ⟨fun h => ?_, fun h => h ▸ rfl⟩
  rw [write_json ha, write_json hb] at h
  have hparts := (fill_inj (fits_parts ha) (fits_parts hb)).mp (List.append_cancel_right h)
  have hdigits {m n : ℕ} : Nat.toDigits 10 m = Nat.toDigits 10 n ↔ m = n :=
    ⟨fun heq => by simpa using congrArg Decimal.value heq, fun heq => heq ▸ rfl⟩
  obtain ⟨version, id, kind, ⟨algorithm, memoryKib, iterations, parallelism, salt, outputLen⟩,
    ⟨cipher, nonce, tagLen⟩⟩ := a
  obtain ⟨version', id', kind', ⟨algorithm', memoryKib', iterations', parallelism', salt',
    outputLen'⟩, ⟨cipher', nonce', tagLen'⟩⟩ := b
  simp only [parts, KdfV4.parts, CipherV4.parts, List.cons_append, List.nil_append,
    List.cons.injEq, String.toList_inj, hdigits, and_true] at hparts
  simp only [hparts]

/-! ## Length -/

/-- How long a file in ASCII is. -/
lemma FileV4.length_toVecPretty {file : FileV4} (h : file.Plain)
    (hascii : ∀ part ∈ file.parts, ∀ c ∈ part, c.toNat < 128) :
    file.json.toVecPretty.length = 315 + (file.parts.map List.length).sum := by
  have htext : ∀ c ∈ file.json.writePretty 0, c.toNat < 128 := by
    intro c hc
    rw [writePretty_json h, List.mem_append] at hc
    rcases hc with hc | hc
    · rcases mem_fill hc with ⟨slot, hslot, hmem⟩ | ⟨part, hpart, hmem⟩
      · have htemplate : ∀ slot ∈ fileTemplate, slot.2.toNat < 128 ∧ ∀ c ∈ slot.1, c.toNat < 128 := by
          decide
        rcases hmem with hmem | rfl
        · exact (htemplate slot hslot).2 c hmem
        · exact (htemplate slot hslot).1
      · exact hascii part hpart c hmem
    · revert c
      decide
  have htemplate : (fileTemplate.map fun slot => slot.1.length + 1).sum = 309 := by decide
  rw [Json.toVecPretty, toUTF8_ofList htext, List.length_map, writePretty_json h,
    List.length_append, length_fill (fits_parts h), htemplate, Nat.add_right_comm]
  rfl

/-! ## The fields of a header -/

/-- What valid parameters of the key derivation are. -/
lemma KdfParams.validate_eq_ok_iff {kdf : KdfParams} : kdf.validate = .ok () ↔
    (0 < kdf.memoryKib ∧ kdf.memoryKib ≤ maxArgon2MemoryKib) ∧
      (0 < kdf.iterations ∧ kdf.iterations ≤ maxArgon2Iterations) ∧
      (0 < kdf.parallelism ∧ kdf.parallelism ≤ maxArgon2Parallelism) ∧
      kdf.outputLen = argon2OutputLen := by
  simp only [validate, guard_eq_ok_iff, not_or, Nat.not_lt, gt_iff_lt, ← Nat.pos_iff_ne_zero,
    ne_eq, not_not, and_true]

/-- What a valid header is. -/
lemma validateHeader_eq_ok_iff {header : Header} : validateHeader header = .ok () ↔
    isKeystoreId header.keystoreId.toList = true ∧ header.kdf.validate = .ok () ∧
      header.cipher.tagLen = aesGcmTagLen := by
  by_cases hid : isKeystoreId header.keystoreId.toList = true
  · have hparse : KeystoreId.parse header.keystoreId = .ok ⟨header.keystoreId, hid⟩ := dif_pos hid
    rw [validateHeader, hparse]
    simp only [Except.mapError, ok_bind, check_bind_eq_ok_iff, CipherParams.validate,
      guard_eq_ok_iff, ne_eq, not_not, hid, true_and, and_true]
  · have hparse : KeystoreId.parse header.keystoreId = .error (.invalidInput "keystore id") :=
      dif_neg hid
    rw [validateHeader, hparse]
    constructor
    · intro h
      cases h
    · intro h
      exact absurd h.1 hid

/-- Lower-case hex digits and dashes are in ASCII and written as they are. -/
lemma escapeChar_of_isLowerHex {c : Char} (h : isLowerHex c = true ∨ c = '-') :
    Json.escapeChar c = [c] ∧ c.toNat < 128 := by
  rcases h with h | rfl
  · have hlt : c.toNat < 128 := by
      simp only [isLowerHex, Bool.or_eq_true, Bool.and_eq_true, decide_eq_true_eq, Char.le_def,
        UInt32.le_iff_toNat_le] at h
      change c.val.toNat < 128
      rcases h with ⟨-, h⟩ | ⟨-, h⟩
      · exact Nat.lt_of_le_of_lt h (by decide)
      · exact Nat.lt_of_le_of_lt h (by decide)
    have hgraph : 48 ≤ c.toNat := by
      rcases (Bool.or_eq_true ..).mp h with h | h
      · exact UInt32.le_iff_toNat_le.mp (of_decide_eq_true ((Bool.and_eq_true ..).mp h).1)
      · exact Nat.le_trans (by decide)
          (UInt32.le_iff_toNat_le.mp (of_decide_eq_true ((Bool.and_eq_true ..).mp h).1))
    refine ⟨?_, hlt⟩
    unfold Json.escapeChar
    split
    all_goals first | exact absurd h (by decide) | skip
    rw [if_neg (by omega), if_neg (by omega), if_neg (by omega)]
  · decide

/-- The characters of an id. -/
lemma isLowerHex_of_isKeystoreId {id : List Char} (h : isKeystoreId id = true) :
    ∀ c ∈ id, isLowerHex c = true ∨ c = '-' := by
  simp only [isKeystoreId, Bool.and_eq_true] at h
  intro c hc
  obtain ⟨i, hi⟩ := List.getElem?_of_mem hc
  have hchar := List.all_eq_true.mp h.1.2 (c, i) (List.mk_mem_zipIdx_iff_getElem?.mpr hi)
  simp only at hchar
  split_ifs at hchar
  · exact .inr (eq_of_beq hchar)
  · exact .inl hchar

/-- The authenticated part of a header. -/
def Header.authenticated (header : Header) : AuthenticatedV4 :=
  ⟨versionV4, header.keystoreId, header.kind.asRef, kdfToWire header.kdf,
    cipherToWire header.cipher⟩

/-- A text of lower-case hex digits and dashes has no escape. -/
lemma plainText_of_isLowerHex {text : String}
    (h : ∀ c ∈ text.toList, isLowerHex c = true ∨ c = '-') : PlainText text := fun c hc =>
  (escapeChar_of_isLowerHex (h c hc)).1

lemma isLowerHex_of_encodeHex (bytes : List UInt8) :
    ∀ c ∈ (encodeHex bytes).toList, isLowerHex c = true ∨ c = '-' := fun c hc =>
  .inl (List.all_eq_true.mp (isLowerHex_encodeHex bytes) c hc)

lemma plainText_asRef (kind : SecretKind) : PlainText kind.asRef := by
  cases kind
  · decide
  · decide

/-- How long the file of a header is without its ciphertext. -/
def fileOverhead (header : Header) : ℕ := (fileOf header []).json.toVecPretty.length

section Header

variable {header : Header} (h : validateHeader header = .ok ())

include h

lemma plain_kdfToWire : (kdfToWire header.kdf).Plain := by
  obtain ⟨-, hkdf, -⟩ := validateHeader_eq_ok_iff.mp h
  obtain ⟨⟨-, hmemory⟩, ⟨-, hiterations⟩, ⟨-, hparallelism⟩, houtput⟩ :=
    KdfParams.validate_eq_ok_iff.mp hkdf
  exact {
    algorithm := show PlainText "argon2id" by decide
    memoryKib := Nat.lt_of_le_of_lt hmemory (by decide)
    iterations := Nat.lt_of_le_of_lt hiterations (by decide)
    parallelism := Nat.lt_of_le_of_lt hparallelism (by decide)
    salt := plainText_of_isLowerHex (isLowerHex_of_encodeHex _)
    outputLen := Nat.lt_of_le_of_lt (Nat.le_of_eq houtput) (by decide) }

lemma plain_cipherToWire : (cipherToWire header.cipher).Plain where
  algorithm := show PlainText "aes-256-gcm" by decide
  nonce := plainText_of_isLowerHex (isLowerHex_of_encodeHex _)
  tagLen := Nat.lt_of_le_of_lt (Nat.le_of_eq (validateHeader_eq_ok_iff.mp h).2.2) (by decide)

/-- **The files that are written** have plain fields. -/
theorem plain_fileOf (ciphertext : List UInt8) : (fileOf header ciphertext).Plain where
  version := show versionV4 < 2 ^ 8 by decide
  id := plainText_of_isLowerHex (isLowerHex_of_isKeystoreId (validateHeader_eq_ok_iff.mp h).1)
  kind := plainText_asRef _
  kdf := plain_kdfToWire h
  cipher := plain_cipherToWire h
  ciphertext := plainText_of_isLowerHex (isLowerHex_of_encodeHex _)

/-- So has what is authenticated of them. -/
lemma plain_authenticated : header.authenticated.Plain where
  version := show versionV4 < 2 ^ 8 by decide
  id := plainText_of_isLowerHex (isLowerHex_of_isKeystoreId (validateHeader_eq_ok_iff.mp h).1)
  kind := plainText_asRef _
  kdf := plain_kdfToWire h
  cipher := plain_cipherToWire h

lemma ascii_parts (ciphertext : List UInt8) :
    ∀ part ∈ (fileOf header ciphertext).parts, ∀ c ∈ part, c.toNat < 128 := by
  have hdigits (n : ℕ) : ∀ c ∈ Nat.toDigits 10 n, c.toNat < 128 := by
    intro c hc
    have hdigit := Decimal.digits_toDigits n c hc
    simp only [Char.isDigit, Bool.and_eq_true, decide_eq_true_eq, UInt32.le_iff_toNat_le] at hdigit
    exact Nat.lt_of_le_of_lt hdigit.2 (by decide)
  have hhex (bytes : List UInt8) : ∀ c ∈ (encodeHex bytes).toList, c.toNat < 128 := fun c hc =>
    (escapeChar_of_isLowerHex (isLowerHex_of_encodeHex bytes c hc)).2
  have hid : ∀ c ∈ header.keystoreId.toList, c.toNat < 128 := fun c hc =>
    (escapeChar_of_isLowerHex
      (isLowerHex_of_isKeystoreId (validateHeader_eq_ok_iff.mp h).1 c hc)).2
  have hkind : ∀ c ∈ header.kind.asRef.toList, c.toNat < 128 := by
    cases header.kind <;> decide
  have halgorithm : ∀ c ∈ "argon2id".toList, c.toNat < 128 := by decide
  have hcipher : ∀ c ∈ "aes-256-gcm".toList, c.toNat < 128 := by decide
  simp only [fileOf, FileV4.parts, KdfV4.parts, CipherV4.parts, kdfToWire, cipherToWire,
    List.cons_append, List.nil_append, List.forall_mem_cons]
  exact ⟨hdigits _, hid, hkind, halgorithm, hdigits _, hdigits _, hdigits _, hhex _, hdigits _,
    hcipher, hhex _, hdigits _, hhex _, List.forall_mem_nil _⟩

/-- A byte of the ciphertext takes two bytes of the file. -/
lemma length_fileOf (ciphertext : List UInt8) :
    (fileOf header ciphertext).json.toVecPretty.length =
      fileOverhead header + 2 * ciphertext.length := by
  rw [fileOverhead, FileV4.length_toVecPretty (plain_fileOf h _) (ascii_parts h _),
    FileV4.length_toVecPretty (plain_fileOf h _) (ascii_parts h _)]
  simp only [FileV4.parts, fileOf, KdfV4.parts, CipherV4.parts, List.cons_append, List.nil_append,
    List.map_cons, List.map_nil, List.sum_cons, List.sum_nil, length_encodeHex, List.length_nil]
  omega

/-- The rest of a file takes 451 bytes at most. -/
lemma fileOverhead_le : fileOverhead header ≤ 451 := by
  obtain ⟨hid, hkdf, htag⟩ := validateHeader_eq_ok_iff.mp h
  obtain ⟨⟨-, hmemory⟩, ⟨-, hiterations⟩, ⟨-, hparallelism⟩, houtput⟩ :=
    KdfParams.validate_eq_ok_iff.mp hkdf
  have hlength : header.keystoreId.toList.length = 36 :=
    KeystoreId.length_value ⟨header.keystoreId, hid⟩
  have hkind : header.kind.asRef.toList.length ≤ 11 := by cases header.kind <;> decide
  have hdigits {n k : ℕ} (hk : 0 < k) (hn : n < 10 ^ k) : (Nat.toDigits 10 n).length ≤ k :=
    (Nat.length_toDigits_le_iff (by decide) hk).mpr hn
  have hversion : (Nat.toDigits 10 versionV4).length ≤ 1 := by decide
  have hmemory := hdigits (n := header.kdf.memoryKib) (k := 6) (by decide)
    (Nat.lt_of_le_of_lt hmemory (by decide))
  have hiterations := hdigits (n := header.kdf.iterations) (k := 2) (by decide)
    (Nat.lt_of_le_of_lt hiterations (by decide))
  have hparallelism := hdigits (n := header.kdf.parallelism) (k := 1) (by decide)
    (Nat.lt_of_le_of_lt hparallelism (by decide))
  have houtput := hdigits (n := header.kdf.outputLen) (k := 2) (by decide)
    (Nat.lt_of_le_of_lt (Nat.le_of_eq houtput) (by decide))
  have htag := hdigits (n := header.cipher.tagLen) (k := 2) (by decide)
    (Nat.lt_of_le_of_lt (Nat.le_of_eq htag) (by decide))
  have halgorithm : "argon2id".toList.length = 8 := by decide
  have hcipher : "aes-256-gcm".toList.length = 11 := by decide
  rw [fileOverhead, FileV4.length_toVecPretty (plain_fileOf h _) (ascii_parts h _)]
  simp only [FileV4.parts, fileOf, KdfV4.parts, CipherV4.parts, kdfToWire, cipherToWire,
    List.cons_append, List.nil_append, List.map_cons, List.map_nil, List.sum_cons, List.sum_nil,
    length_encodeHex, List.length_nil, header.kdf.salt.2, header.cipher.nonce.2, hlength,
    halgorithm, hcipher]
  clear halgorithm hcipher
  omega

end Header

end GemCore.Keystore
