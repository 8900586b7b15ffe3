import GemCore.Eip712.TypeName
import GemCore.Keystore.Types
import GemCore.Lib.Closure
import GemCore.Primitives.Json
import Mathlib.Data.String.Basic

/-!
# Hashing typed data

The digest that is signed for an EIP-712 document (`signer/src/eip712/hash_impl.rs`, `data.rs` and
the value half of `parse.rs`). A value is encoded in a word of 32 bytes by the text of its type; a
struct and an array are the hash of the words inside them.

The recursion of `encode_value` goes down the document and is structural here: a member of an
object is found and encoded by the walk of `encodeEntry` over its entries.

## Main definitions

* `Crates` — what comes from other crates: the hash function, the parsers of integers and of JSON,
  and the texts of their errors.
* `encodeType` — the text that is hashed for a struct type.
* `encodeValue`, `hashStruct`, `hashTypedData`.
-/

namespace GemCore.Eip712

open Lib

/-- The arrays `[u8; 32]`. -/
abbrev Word : Type := FixedBytes 32

/-- What the signer takes from other crates. `parseU256` and `parseI256` are the `from_str` of the
256-bit integers, `parseJson` is `serde_json::from_str`, and `display` is the text of a value. -/
structure Crates where
  keccak256 : List UInt8 → Word
  parseU256 : String → Except String ℕ
  parseI256 : String → Except String ℤ
  parseJson : String → Except String Json
  display : Json → String
  hexError : String → String
  serdeError : Json → String

/-! ## The document -/

/-- `TypeField`. -/
structure TypeField where
  name : String
  type : String

/-- The types table of a document. -/
abbrev Types : Type := List (String × List TypeField)

/-- `TypedData`. -/
structure TypedData where
  types : Types
  primaryType : String
  domain : Json
  message : Json

/-- A field of a struct type. The derived deserialiser also takes the members in a row. -/
def TypeField.fromValue : Json → Option TypeField
  | .obj entries => do
    let name ← (Json.lookup entries "name").bind Json.asStr
    let type ← (Json.lookup entries "type").bind Json.asStr
    some ⟨name, type⟩
  | .arr [.str name, .str type] => some ⟨name, type⟩
  | _ => none

/-- One struct type of the types table. -/
def structFromValue (entry : String × Json) : Option (String × List TypeField) := do
  let items ← entry.2.asArray
  let fields ← items.mapM TypeField.fromValue
  some (entry.1, fields)

/-- The types table. -/
def typesFromValue (value : Json) : Option Types := do
  let entries ← value.asObject
  entries.mapM structFromValue

/-- The members of a document. -/
def TypedData.fromMembers (types primaryType domain message : Json) : Option TypedData := do
  let types ← typesFromValue types
  let primaryType ← primaryType.asStr
  some ⟨types, primaryType, domain, message⟩

/-- The derived deserialiser of `TypedData`. -/
def TypedData.deserialize : Json → Option TypedData
  | .obj entries => do
    let types ← Json.lookup entries "types"
    let primaryType ← Json.lookup entries "primaryType"
    let message ← Json.lookup entries "message"
    fromMembers types primaryType ((Json.lookup entries "domain").getD .null) message
  | .arr [types, primaryType, domain, message] => fromMembers types primaryType domain message
  | _ => none

/-- `TypedData::from_value`. -/
def TypedData.fromValue (crates : Crates) (value : Json) : Except SignerError TypedData :=
  okOr (deserialize value)
    (.invalidInput ("Invalid EIP-712 JSON: " ++ crates.serdeError value))

/-! ## Struct types -/

/-- `collect_type_dependencies`, with a bound on the depth of the recursion. The set of results is
ordered. -/
def collectTypeDependencies (types : Types) : ℕ → String → List String → List String
  | 0, _, results => results
  | fuel + 1, typeName, results =>
    let base := baseTypeName typeName
    if base ∈ results then results
    else
      match types.lookup base with
      | none => results
      | some fields =>
        fields.foldl (fun acc field => collectTypeDependencies types fuel field.type acc)
          (results.orderedInsert (· ≤ ·) base)

/-- One struct type in the text of a type: its name and its fields. -/
def structText (name : String) (fields : List TypeField) : String :=
  name ++ "(" ++ ",".intercalate (fields.map fun field => field.type ++ " " ++ field.name) ++ ")"

/-- A struct type of the table, in the loop of `encode_type`. -/
def encodeTypePart (types : Types) (typeName : String) : Except SignerError String := do
  let fields ← okOr (types.lookup typeName)
    (.invalidInput s!"Unknown EIP-712 type '{typeName}'")
  .ok (structText typeName fields)

/-- `encode_type`. Every call that goes deeper adds a type of the table to the results, so their
number bounds the depth. -/
def encodeType (types : Types) (primaryType : String) : Except SignerError String :=
  if (types.lookup primaryType).isNone then
    .error (.invalidInput s!"Unknown EIP-712 type '{primaryType}'")
  else do
    let deps := (collectTypeDependencies types (types.length + 1) primaryType []).erase primaryType
    let parts ← tryMap (encodeTypePart types) (primaryType :: deps)
    .ok (String.join parts)

/-- `hash_type`. -/
def hashType (crates : Crates) (types : Types) (primaryType : String) : Except SignerError Word := do
  let encoded ← encodeType types primaryType
  .ok (crates.keccak256 (Keystore.utf8 encoded))

/-! ## Atomic values -/

/-- `left_pad`. -/
def leftPad (bytes : List UInt8) : Word :=
  let len := min bytes.length 32
  ⟨List.replicate (32 - len) 0 ++ bytes.drop (bytes.length - len), by
    simp only [List.length_append, List.length_replicate, List.length_drop, len]
    omega⟩

/-- `right_pad`. -/
def rightPad (bytes : List UInt8) : Word :=
  let len := min bytes.length 32
  ⟨bytes.take len ++ List.replicate (32 - len) 0, by
    simp only [List.length_append, List.length_replicate, List.length_take, len]
    omega⟩

/-- `to_be_bytes::<32>`. -/
def toBeBytes (n : ℕ) : Word := ⟨beBytes 32 n, length_beBytes 32 n⟩

/-- `bit_len` of an unsigned integer. -/
def bitLen (n : ℕ) : ℕ := if n = 0 then 0 else n.log2 + 1

/-- `bits` of a signed integer: zero and the negative powers of two need no further bit for the
sign. -/
def signedBits (z : ℤ) : ℕ :=
  let abs := z.natAbs
  if z = 0 ∨ (z < 0 ∧ abs = 2 ^ abs.log2) then bitLen abs else bitLen abs + 1

/-- `into_raw` of a signed integer: its two's complement. -/
def intoRaw (z : ℤ) : ℕ := (z % 2 ^ 256).toNat

section

variable (crates : Crates)

/-- `alloy_primitives::hex::decode`, with an optional `0x` in front. -/
def decodeHexText (text : String) : Except SignerError (List UInt8) :=
  okOr (decodeHexPairs (dropHexMark text.toList)) (.invalidInput (crates.hexError text))

/-- `parse_uint_value`. -/
def parseUintValue : Json → Except SignerError ℕ
  | .str s => (crates.parseU256 s).mapError .invalidInput
  | .num n =>
    match n.asU64, n.asI64 with
    | some u, _ => .ok u
    | none, some i =>
      if 0 ≤ i then .ok i.toNat
      else .error (.invalidInput "Negative numeric value provided for unsigned integer")
    | none, none => .error (.invalidInput "Unsupported numeric value for unsigned integer")
  | .null => .error (.invalidInput "Missing unsigned integer value")
  | other => .error (.invalidInput ("Expected integer value, got " ++ crates.display other))

/-- `parse_int_value`. -/
def parseIntValue : Json → Except SignerError ℤ
  | .str s => (crates.parseI256 s).mapError .invalidInput
  | .num n =>
    match n.asI64, n.asU64 with
    | some i, _ => .ok i
    | none, some u => .ok u
    | none, none => .error (.invalidInput "Unsupported numeric value for signed integer")
  | .null => .error (.invalidInput "Missing signed integer value")
  | other => .error (.invalidInput ("Expected integer value, got " ++ crates.display other))

/-- `adjust_signed_value`. -/
def adjustSignedValue (number : ℤ) (bits : ℕ) : Except SignerError ℕ :=
  if bits = 0 ∨ 32 * 8 < bits then
    .error (.invalidInput s!"Unsupported bit size {bits} for signed integer")
  else if bits < signedBits number then
    .error (.invalidInput s!"Value out of range for signed integer with {bits} bits")
  else .ok (intoRaw number)

/-- `encode_string`. -/
def encodeString : Json → Except SignerError Word
  | .str s => .ok (crates.keccak256 (Keystore.utf8 s))
  | other => .error (.invalidInput ("Expected string value, got " ++ crates.display other))

/-- `encode_bytes`. -/
def encodeBytes : Json → Except SignerError Word
  | .str s => do
    let bytes ← decodeHexText crates s
    .ok (crates.keccak256 bytes)
  | other =>
    .error (.invalidInput ("Expected hex string for bytes value, got " ++ crates.display other))

/-- The boolean that `encode_bool` reads: also a number, if it is an integer. -/
def boolValue : Json → Except SignerError Bool
  | .bool b => .ok b
  | .num n =>
    match n.asU64, n.asI64 with
    | some v, _ => .ok (v ≠ 0)
    | none, some v => .ok (v ≠ 0)
    | none, none => .error (.invalidInput "Invalid numeric value for bool")
  | other => .error (.invalidInput ("Expected boolean value, got " ++ crates.display other))

/-- `encode_bool`. -/
def encodeBool (value : Json) : Except SignerError Word := do
  let b ← boolValue crates value
  .ok (if b then leftPad [1] else leftPad [])

/-- `encode_address`. -/
def encodeAddress : Json → Except SignerError Word
  | .str s => do
    let raw ← decodeHexText crates s
    if raw.length ≠ 20 then .error (.invalidInput s!"Invalid address length for '{s}'")
    else .ok (leftPad raw)
  | other => .error (.invalidInput ("Expected address string, got " ++ crates.display other))

/-- `encode_uint`. -/
def encodeUint (typeName : String) (value : Json) : Except SignerError Word := do
  let bits ← parseNumericBits typeName "uint"
  let number ← parseUintValue crates value
  if bits < bitLen number then
    .error (.invalidInput
      s!"Value out of range for type '{typeName}' ({bits}-bit unsigned integer)")
  else .ok (toBeBytes number)

/-- `encode_int`. -/
def encodeInt (typeName : String) (value : Json) : Except SignerError Word := do
  let bits ← parseNumericBits typeName "int"
  let number ← parseIntValue crates value
  let unsigned ← adjustSignedValue number bits
  .ok (toBeBytes unsigned)

/-- The bytes that `encode_fixed_bytes` reads. -/
def fixedBytesValue (typeName : String) : Json → Except SignerError (List UInt8)
  | .str s => if s = "" then .ok [] else decodeHexText crates s
  | other => .error (.invalidInput
      ("Expected hex string for " ++ typeName ++ ", got " ++ crates.display other))

/-- `encode_fixed_bytes`: shorter values are filled up with zeros on the right. -/
def encodeFixedBytes (typeName : String) (value : Json) : Except SignerError Word := do
  let size ← parseFixedBytesSize typeName
  let bytes ← fixedBytesValue crates typeName value
  if size < bytes.length then .error (.invalidInput s!"Value too large for type '{typeName}'")
  else .ok (rightPad (bytes ++ List.replicate (size - bytes.length) 0))

/-- The types of `encode_value` that are neither arrays nor declared structs. -/
def encodeAtomic (typeName baseType : String) (value : Json) : Except SignerError Word :=
  if baseType = "string" then encodeString crates value
  else if baseType = "bytes" then encodeBytes crates value
  else if baseType = "bool" then encodeBool crates value
  else if baseType = "address" then encodeAddress crates value
  else if startsWith "uint" baseType then encodeUint crates baseType value
  else if startsWith "int" baseType then encodeInt crates baseType value
  else if startsWith "bytes" baseType then encodeFixedBytes crates baseType value
  else .error (.invalidInput s!"Unsupported EIP-712 type '{typeName}'")

/-! ## Values -/

variable (types : Types)

/-- The end of `hash_struct`: the type's hash and the words of the fields. -/
def finishStruct (primaryType : String) (fieldWords : Except SignerError (List Word)) :
    Except SignerError Word := do
  let typeHash ← hashType crates types primaryType
  let words ← fieldWords
  .ok (crates.keccak256 (typeHash.val ++ (words.map Subtype.val).flatten))

/-- The error of `encode_value` on a value that is absent or `null`. -/
def missingValue (typeName : String) : SignerError :=
  .invalidInput s!"Missing value for type '{typeName}'"

/-- The error of `encode_value` on a value that is not an array. -/
def expectedArray (typeName : String) (other : Json) : SignerError :=
  .invalidInput ("Expected array for type '" ++ typeName ++ "', got " ++ crates.display other)

/-- The error of `hash_struct` on a value that is not an object. -/
def expectedObject (primaryType : String) : Json → SignerError
  | .null => .invalidInput s!"Missing object for type '{primaryType}'"
  | other =>
    .invalidInput ("Expected object for type '" ++ primaryType ++ "', got " ++ crates.display other)

/-- The check of `encode_value` on the length of an array. -/
def checkLength (typeName : String) (expectedLen : Option ℕ) (length : ℕ) :
    Except SignerError Unit :=
  match expectedLen with
  | none => .ok ()
  | some len =>
    if length ≠ len then .error (.invalidInput
      s!"Expected array of length {len} for type '{typeName}', got {length}")
    else .ok ()

mutual

/-- `encode_value` on a value that is present. -/
def encodeValue (typeName : String) (value : Json) : Except SignerError Word :=
  match value with
  | .null => .error (missingValue typeName)
  | .arr items => do
    match ← parseArrayType typeName with
    | some (elementType, expectedLen) =>
      checkLength typeName expectedLen items.length
      let words ← encodeItems elementType items
      .ok (crates.keccak256 (words.map Subtype.val).flatten)
    | none =>
      let baseType := baseTypeName typeName
      if (types.lookup baseType).isSome then
        .error (expectedObject crates baseType (.arr items))
      else encodeAtomic crates typeName baseType (.arr items)
  | .obj entries => do
    match ← parseArrayType typeName with
    | some _ => .error (expectedArray crates typeName (.obj entries))
    | none =>
      let baseType := baseTypeName typeName
      match types.lookup baseType with
      | some fields =>
        finishStruct crates types baseType
          (tryMap (fun field => encodeEntry field.name field.type entries) fields)
      | none => encodeAtomic crates typeName baseType (.obj entries)
  | other => do
    match ← parseArrayType typeName with
    | some _ => .error (expectedArray crates typeName other)
    | none =>
      let baseType := baseTypeName typeName
      if (types.lookup baseType).isSome then .error (expectedObject crates baseType other)
      else encodeAtomic crates typeName baseType other

/-- The loop of `encode_value` over the items of an array. -/
def encodeItems (elementType : String) (items : List Json) : Except SignerError (List Word) :=
  match items with
  | [] => .ok []
  | item :: rest => do
    let word ← encodeValue elementType item
    let words ← encodeItems elementType rest
    .ok (word :: words)

/-- `encode_value` on the member of an object, which may be absent. -/
def encodeEntry (name typeName : String) (entries : List (String × Json)) :
    Except SignerError Word :=
  match entries with
  | [] => .error (missingValue typeName)
  | (key, value) :: rest =>
    if name == key then encodeValue typeName value else encodeEntry name typeName rest

end

/-- `hash_struct`. -/
def hashStruct (primaryType : String) (data : Json) : Except SignerError Word := do
  let fields ← okOr (types.lookup primaryType)
    (.invalidInput s!"Unknown EIP-712 type '{primaryType}'")
  match data with
  | .obj entries =>
    finishStruct crates types primaryType
      (tryMap (fun field => encodeEntry crates types field.name field.type entries) fields)
  | other => .error (expectedObject crates primaryType other)

end

/-! ## The digest -/

/-- Does the schema declare a field `chainId` of the domain? -/
def schemaHasChainId (value : Json) : Bool :=
  match ((value.get "types").bind (Json.get "EIP712Domain")).bind Json.asArray with
  | some fields => fields.any fun field => (field.get "name").bind Json.asStr == some "chainId"
  | none => false

/-- `validate_eip712_domain_chain_id_binding`. -/
def validateEip712DomainChainIdBinding (value : Json) : Except SignerError Unit :=
  match (value.get "domain").bind (Json.get "chainId"), schemaHasChainId value with
  | some _, false => .error (.invalidInput
      "EIP712Domain type schema must declare chainId when domain.chainId is present")
  | some .null, true => .error (.invalidInput "EIP712 domain missing chainId")
  | none, true => .error (.invalidInput "EIP712 domain missing chainId")
  | _, _ => .ok ()

/-- The hash of the domain, if its type is declared. -/
def domainHash (crates : Crates) (parsed : TypedData) : Except SignerError Word :=
  if (parsed.types.lookup "EIP712Domain").isSome then
    hashStruct crates parsed.types "EIP712Domain" parsed.domain
  else .ok (leftPad [])

/-- `hash_typed_data`, on a parsed document. -/
def hashTypedDataValue (crates : Crates) (value : Json) : Except SignerError Word := do
  validateEip712DomainChainIdBinding value
  let parsed ← TypedData.fromValue crates value
  match parsed.message with
  | .null => .error (.invalidInput "Invalid EIP-712 JSON: missing message")
  | message =>
    let domainHash ← domainHash crates parsed
    let messageHash ← hashStruct crates parsed.types parsed.primaryType message
    .ok (crates.keccak256 ([0x19, 0x01] ++ domainHash.val ++ messageHash.val))

/-- `hash_typed_data`. -/
def hashTypedData (crates : Crates) (json : String) : Except SignerError Word := do
  let value ← (crates.parseJson json).mapError fun err =>
    .invalidInput ("Invalid EIP-712 JSON: " ++ err)
  hashTypedDataValue crates value

/-! ## What the encoders succeed on -/

section Specs

variable {crates : Crates} {types : Types}

lemma encodeItems_eq_tryMap (elementType : String) (items : List Json) :
    encodeItems crates types elementType items =
      tryMap (encodeValue crates types elementType) items := by
  induction items with
  | nil => rfl
  | cons item rest ih => rw [encodeItems, tryMap, ih]

/-- A member is encoded if it is there. -/
lemma encodeEntry_eq_ok_iff {name typeName : String} {entries : List (String × Json)}
    {word : Word} : encodeEntry crates types name typeName entries = .ok word ↔
      ∃ value, Json.lookup entries name = some value ∧
        encodeValue crates types typeName value = .ok word := by
  induction entries with
  | nil => simp [encodeEntry, Json.lookup]
  | cons entry rest ih =>
    obtain ⟨key, value⟩ := entry
    rw [encodeEntry, Json.lookup, List.lookup_cons]
    by_cases h : name == key
    · simp [h]
    · simpa [h, Json.lookup] using ih

/-- The words of the fields of an object. -/
def FieldWords (crates : Crates) (types : Types) (entries : List (String × Json))
    (fields : List TypeField) (words : List Word) : Prop :=
  List.Forall₂ (fun field word => ∃ value, Json.lookup entries field.name = some value ∧
    encodeValue crates types field.type value = .ok word) fields words

/-- The hash of a struct from the hash of its type and the words of its fields. -/
def structHash (crates : Crates) (typeHash : Word) (words : List Word) : Word :=
  crates.keccak256 (typeHash.val ++ (words.map Subtype.val).flatten)

/-- A struct is hashed if every field is there and is encoded. -/
lemma finishStruct_eq_ok_iff {name : String} {fields : List TypeField}
    {entries : List (String × Json)} {word : Word} :
    finishStruct crates types name
        (tryMap (fun field => encodeEntry crates types field.name field.type entries) fields) =
      .ok word ↔ ∃ typeHash words, hashType crates types name = .ok typeHash ∧
        FieldWords crates types entries fields words ∧ word = structHash crates typeHash words := by
  simp only [finishStruct, bind_eq_ok_iff, tryMap_eq_ok_iff, encodeEntry_eq_ok_iff,
    Except.ok.injEq, FieldWords, structHash]
  constructor
  · rintro ⟨typeHash, htype, words, hwords, rfl⟩
    exact ⟨typeHash, words, htype, hwords, rfl⟩
  · rintro ⟨typeHash, words, htype, hwords, rfl⟩
    exact ⟨typeHash, htype, words, hwords, rfl⟩

/-- `hash_struct` succeeds on an object of a declared type whose fields are encoded. -/
theorem hashStruct_eq_ok_iff {name : String} {data : Json} {word : Word} :
    hashStruct crates types name data = .ok word ↔
      ∃ fields entries typeHash words, types.lookup name = some fields ∧ data = .obj entries ∧
        hashType crates types name = .ok typeHash ∧
        FieldWords crates types entries fields words ∧ word = structHash crates typeHash words := by
  simp only [hashStruct, bind_eq_ok_iff, okOr_eq_ok_iff]
  constructor
  · rintro ⟨fields, hfields, hdata⟩
    cases data with
    | obj entries =>
      obtain ⟨typeHash, words, htype, hwords, rfl⟩ := finishStruct_eq_ok_iff.mp hdata
      exact ⟨fields, entries, typeHash, words, hfields, rfl, htype, hwords, rfl⟩
    | _ => cases hdata
  · rintro ⟨fields, entries, typeHash, words, hfields, rfl, htype, hwords, rfl⟩
    exact ⟨fields, hfields, finishStruct_eq_ok_iff.mpr ⟨typeHash, words, htype, hwords, rfl⟩⟩

lemma checkLength_eq_ok_iff {typeName : String} {expectedLen : Option ℕ} {length : ℕ} :
    checkLength typeName expectedLen length = .ok () ↔ ∀ len, expectedLen = some len →
      length = len := by
  cases expectedLen with
  | none | some len => simp [checkLength]

/-- Nothing is encoded under a malformed array type. -/
lemma exists_parseArrayType_of_encodeValue {typeName : String} {value : Json} {word : Word}
    (h : encodeValue crates types typeName value = .ok word) :
    ∃ parsed, parseArrayType typeName = .ok parsed := by
  cases hparse : parseArrayType typeName with
  | ok parsed => exact ⟨parsed, rfl⟩
  | error e =>
    cases value with
    | null => cases h
    | _ =>
      simp only [encodeValue, hparse] at h
      cases h

/-- A value of an array type is encoded if it is an array of the right length whose items are. -/
theorem encodeValue_array_eq_ok_iff {typeName elementType : String} {expectedLen : Option ℕ}
    (hparse : parseArrayType typeName = .ok (some (elementType, expectedLen))) {value : Json}
    {word : Word} : encodeValue crates types typeName value = .ok word ↔
      ∃ items words, value = .arr items ∧
        (∀ len, expectedLen = some len → items.length = len) ∧
        List.Forall₂ (fun item word => encodeValue crates types elementType item = .ok word)
          items words ∧ word = crates.keccak256 (words.map Subtype.val).flatten := by
  cases value with
  | arr items =>
    simp only [encodeValue, hparse, ok_bind, encodeItems_eq_tryMap, bind_eq_ok_iff,
      tryMap_eq_ok_iff, Except.ok.injEq]
    constructor
    · rintro ⟨⟨⟩, hlength, words, hwords, rfl⟩
      exact ⟨items, words, rfl, checkLength_eq_ok_iff.mp hlength, hwords, rfl⟩
    · rintro ⟨items', words, hitems, hlength, hwords, rfl⟩
      obtain rfl := Json.arr.inj hitems
      exact ⟨(), checkLength_eq_ok_iff.mpr hlength, words, hwords, rfl⟩
  | null => simp [encodeValue]
  | bool b | num n | str s | obj entries => simp [encodeValue, hparse, ok_bind]

/-- A value of a declared type is encoded as a struct. -/
lemma encodeValue_struct_eq {typeName : String} (hparse : parseArrayType typeName = .ok none)
    {fields : List TypeField} (hfields : types.lookup (baseTypeName typeName) = some fields)
    {value : Json} {word : Word} : encodeValue crates types typeName value = .ok word ↔
      hashStruct crates types (baseTypeName typeName) value = .ok word := by
  cases value with
  | obj entries => simp [encodeValue, hashStruct, hparse, hfields, ok_bind]
  | _ => simp [encodeValue, hashStruct, hparse, hfields, ok_bind]

/-- Any other value is encoded by the name of its type. -/
lemma encodeValue_atomic_eq_ok_iff {typeName : String}
    (hparse : parseArrayType typeName = .ok none)
    (hfields : types.lookup (baseTypeName typeName) = none) {value : Json} {word : Word} :
    encodeValue crates types typeName value = .ok word ↔
      value ≠ .null ∧ encodeAtomic crates typeName (baseTypeName typeName) value = .ok word := by
  cases value with
  | null => simp [encodeValue]
  | _ => simp [encodeValue, hparse, hfields, ok_bind]

/-- The digest of a document. -/
def typedDataHash (crates : Crates) (domainHash messageHash : Word) : Word :=
  crates.keccak256 ([0x19, 0x01] ++ domainHash.val ++ messageHash.val)

/-- `hash_typed_data` succeeds if the checks pass and both structs are hashed. -/
theorem hashTypedDataValue_eq_ok_iff {value : Json} {word : Word} :
    hashTypedDataValue crates value = .ok word ↔
      validateEip712DomainChainIdBinding value = .ok () ∧
      ∃ parsed domainWord messageWord, TypedData.deserialize value = some parsed ∧
        domainHash crates parsed = .ok domainWord ∧
        hashStruct crates parsed.types parsed.primaryType parsed.message = .ok messageWord ∧
        word = typedDataHash crates domainWord messageWord := by
  rw [hashTypedDataValue, check_bind_eq_ok_iff]
  refine and_congr_right fun _ => ?_
  simp only [bind_eq_ok_iff, TypedData.fromValue, okOr_eq_ok_iff]
  constructor
  · rintro ⟨parsed, hparsed, hhash⟩
    split at hhash
    · cases hhash
    · simp only [bind_eq_ok_iff, Except.ok.injEq] at hhash
      obtain ⟨domainWord, hdomain, messageWord, hmessage, rfl⟩ := hhash
      exact ⟨parsed, domainWord, messageWord, hparsed, hdomain, hmessage, rfl⟩
  · rintro ⟨parsed, domainWord, messageWord, hparsed, hdomain, hmessage, rfl⟩
    refine ⟨parsed, hparsed, ?_⟩
    split
    · rename_i hnull
      rw [hnull] at hmessage
      obtain ⟨_, _, _, _, _, hobj, _⟩ := hashStruct_eq_ok_iff.mp hmessage
      cases hobj
    · simp only [bind_eq_ok_iff, Except.ok.injEq]
      exact ⟨domainWord, hdomain, messageWord, hmessage, rfl⟩

end Specs

end GemCore.Eip712
