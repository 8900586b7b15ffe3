import GemCore.Eip712.Hash

/-!
# The preview of typed data

What the wallet shows of an EIP-712 document before it is signed, and the check of the chain the
document is for (`gem_evm/src/eip712.rs`, with the deserialiser of `serde_serializers/src/u64.rs`).
The preview has its own interpreter of types: an array is a type that ends in `[]`, built-in names
are matched before declared structs, and integers are kept as texts.

## Main definitions

* `TypedValue` — `EIP712TypedValue`, the tree that is shown.
* `parseValue`, `parseEip712Json` — the preview.
* `validateEip712ChainId` — the check of the chain.
-/

namespace GemCore.Eip712

open Lib

/-- `EIP712TypedValue`. -/
inductive TypedValue where
  | address (value : String)
  | uint256 (value : String)
  | int256 (value : String)
  | string (value : String)
  | bool (value : Bool)
  | bytes (value : List UInt8)
  | struct (fields : List (String × TypedValue))
  | array (items : List TypedValue)

/-- What the preview takes from other crates. `checksum` is `Address::to_checksum`, and the others
are texts of errors. -/
structure PreviewCrates where
  checksum : FixedBytes 20 → String
  addressError : String → String
  hexDecodeError : String → String
  debug : Json → String
  domainError : Json → String
  fieldsError : Json → String

/-! ## Leaves -/

/-- The types the preview knows by name. -/
inductive LeafKind where
  | address
  | string
  | bool
  | bytes
  | uint
  | int
  | fixedBytes

/-- The order in which `parse_value` matches the name of a type. -/
def leafKind (typeName : String) : Option LeafKind :=
  if typeName = "address" then some .address
  else if typeName = "string" then some .string
  else if typeName = "bool" then some .bool
  else if typeName = "bytes" then some .bytes
  else if startsWith "uint" typeName then some .uint
  else if startsWith "int" typeName then some .int
  else if startsWith "bytes" typeName then some .fixedBytes
  else none

section

variable (crates : PreviewCrates)

/-- `ethereum_address_checksum`: the text without a checksum or with any, except for `0X`. -/
def ethereumAddressChecksum (address : String) : Except String String :=
  if startsWith "0X" address then .error (crates.addressError address)
  else
    match decodeHexPairs (dropHexMark address.toList) with
    | some bytes =>
      if h : bytes.length = 20 then .ok (crates.checksum ⟨bytes, h⟩)
      else .error (crates.addressError address)
    | none => .error (crates.addressError address)

/-- `parse_numeric_value_as_string`. -/
def parseNumericValueAsString (typeName : String) : Json → Except String String
  | .num n => .ok n.text
  | .str s => .ok s
  | other =>
    let typeKind := if startsWith "int" typeName then "int" else "uint"
    .error ("Expected number or string for " ++ typeKind ++ " type '" ++ typeName ++ "', got: " ++
      crates.debug other)

/-- The bytes of a hex text in `parse_value`. `kind` is how its errors name the type. -/
def parseHexBytes (kind : String) (value : Json) : Except String (List UInt8) := do
  let s ← okOr value.asStr
    ("Expected hex string for bytes type" ++ kind ++ ", got: " ++ crates.debug value)
  okOr (decodeHexPairs (dropHexMark s.toList))
    ("Invalid hex string for bytes type" ++ kind ++ ": " ++ s ++ ", error: " ++
      crates.hexDecodeError s)

/-- `parse_value` on a type it knows by name. -/
def parseLeaf (kind : LeafKind) (typeName : String) (value : Json) : Except String TypedValue :=
  match kind with
  | .address => do
    let s ← okOr value.asStr ("Expected string for address, got: " ++ crates.debug value)
    let checksum ← (ethereumAddressChecksum crates s).mapError fun error =>
      "Invalid address '" ++ s ++ "': " ++ error
    .ok (.address checksum)
  | .string => do
    let s ← okOr value.asStr ("Expected string for string type, got: " ++ crates.debug value)
    .ok (.string s)
  | .bool => do
    let b ← okOr value.asBool ("Expected boolean for bool type, got: " ++ crates.debug value)
    .ok (.bool b)
  | .bytes => do
    let bytes ← parseHexBytes crates "" value
    .ok (.bytes bytes)
  | .uint => do
    let text ← parseNumericValueAsString crates typeName value
    .ok (.uint256 text)
  | .int => do
    let text ← parseNumericValueAsString crates typeName value
    .ok (.int256 text)
  | .fixedBytes => do
    let bytes ← parseHexBytes crates (" '" ++ typeName ++ "'") value
    .ok (.bytes bytes)

/-! ## Values -/

/-- `strip_suffix("[]")`. -/
def stripBrackets (typeName : String) : Option String :=
  match typeName.toList.reverse with
  | ']' :: '[' :: rest => some (String.ofList rest.reverse)
  | _ => none

variable (types : Types)

mutual

/-- `parse_value`. -/
def parseValue (typeName : String) (value : Json) : Except String TypedValue :=
  match stripBrackets typeName with
  | some baseType =>
    match value with
    | .arr items => do
      let values ← parseItems baseType items
      .ok (.array values)
    | other =>
      .error ("Expected array for type '" ++ typeName ++ "', got: " ++ crates.debug other)
  | none =>
    match leafKind typeName with
    | some kind => parseLeaf crates kind typeName value
    | none =>
      match types.lookup typeName with
      | none => .error s!"Unknown or unsupported type '{typeName}'"
      | some definedFields =>
        match value with
        | .obj entries => do
          let fields ← tryMap
            (fun field => parseEntry typeName field.name field.type entries) definedFields
          .ok (.struct fields)
        | other => .error ("Expected object for struct type '" ++ typeName ++ "', got: " ++
            crates.debug other)

/-- The loop of `parse_value` over the items of an array. -/
def parseItems (baseType : String) (items : List Json) : Except String (List TypedValue) :=
  match items with
  | [] => .ok []
  | item :: rest => do
    let value ← parseValue baseType item
    let values ← parseItems baseType rest
    .ok (value :: values)

/-- A field of a struct in `parse_value`: the member of the object under its name. -/
def parseEntry (structType name typeName : String) (entries : List (String × Json)) :
    Except String (String × TypedValue) :=
  match entries with
  | [] => .error s!"Missing field '{name}' for struct type '{structType}'"
  | (key, value) :: rest =>
    if name == key then do
      let typed ← parseValue typeName value
      .ok (name, typed)
    else parseEntry structType name typeName rest

end

end

/-! ## The domain -/

/-- `EIP712Domain`. -/
structure EIP712Domain where
  name : Option String
  version : Option String
  chainId : Option ℕ
  verifyingContract : Option String
  salts : Option (List ℕ)

/-- `u64::from_str_radix` with radix 16. -/
def parseHexU64 (text : List Char) : Option ℕ := do
  let digits := match text with
    | '+' :: rest => rest
    | _ => text
  if digits = [] then none
  else
    let n ← digits.foldlM (fun acc c => (hexDigit c).map (16 * acc + ·)) 0
    if n < 2 ^ 64 then some n else none

/-- `parse_u64_string`. -/
def parseU64String (value : String) : Option ℕ :=
  match value.toList with
  | '0' :: 'x' :: digits => parseHexU64 digits
  | text => parseUsize text

/-- `deserialize_option_u64_from_str_or_int`, on a member that may be absent. The outer option is
an error. -/
def optionU64 : Option Json → Option (Option ℕ)
  | some (.str s) => (parseU64String s).map some
  | some (.num n) =>
    match n.asU64, n.asI64 with
    | some u, _ => some (some u)
    | none, some i => if 0 ≤ i then some (some i.toNat) else none
    | none, none => none
  | some .null => some none
  | none => some none
  | some _ => none

/-- An optional string. -/
def optionString : Option Json → Option (Option String)
  | some (.str s) => some (some s)
  | some .null => some none
  | none => some none
  | some _ => none

/-- A `u8`. -/
def byteFromValue : Json → Option ℕ
  | .num n => n.asU64.filter (· < 256)
  | _ => none

/-- An optional list of bytes. -/
def optionBytes : Option Json → Option (Option (List ℕ))
  | some (.arr items) => (items.mapM byteFromValue).map some
  | some .null => some none
  | none => some none
  | some _ => none

/-- The members of the domain. -/
def EIP712Domain.fromMembers (name version chainId verifyingContract salts : Option Json) :
    Option EIP712Domain := do
  let name ← optionString name
  let version ← optionString version
  let chainId ← optionU64 chainId
  let verifyingContract ← optionString verifyingContract
  let salts ← optionBytes salts
  some ⟨name, version, chainId, verifyingContract, salts⟩

/-- The derived deserialiser of the domain, which also takes the members in a row. -/
def EIP712Domain.fromValue : Json → Option EIP712Domain
  | .obj entries =>
    fromMembers (Json.lookup entries "name") (Json.lookup entries "version")
      (Json.lookup entries "chainId") (Json.lookup entries "verifyingContract")
      (Json.lookup entries "salts")
  | .arr [name, version, chainId, verifyingContract, salts] =>
    fromMembers (some name) (some version) (some chainId) (some verifyingContract) (some salts)
  | _ => none

/-! ## The preview -/

/-- `EIP712Message`. -/
structure EIP712Message where
  domain : EIP712Domain
  primaryType : String
  message : List (String × TypedValue)

/-- The types table in `parse_eip712_json`. -/
def previewTypes (crates : PreviewCrates) (entries : List (String × Json)) : Except String Types :=
  tryMap (fun entry => okOr (structFromValue entry)
    ("Invalid EIP712 JSON: types field '" ++ entry.1 ++ "' parse error: " ++
      crates.fieldsError entry.2)) entries

/-- The domain in `parse_eip712_json`, with the checksum of its contract. -/
def previewDomain (crates : PreviewCrates) (domainValue : Json) : Except String EIP712Domain := do
  let domain ← okOr (EIP712Domain.fromValue domainValue)
    ("Invalid EIP712 JSON: domain parse error: " ++ crates.domainError domainValue)
  match domain.verifyingContract with
  | none => .ok domain
  | some contract =>
    let checksum ← ethereumAddressChecksum crates contract
    .ok { domain with verifyingContract := some checksum }

/-- The fields of a struct. -/
def structFields (primaryType : String) : TypedValue → Except String (List (String × TypedValue))
  | .struct fields => .ok fields
  | _ => .error s!"Primary type '{primaryType}' did not resolve to a Struct"

/-- `parse_eip712_json`. -/
def parseEip712Json (crates : PreviewCrates) (value : Json) : Except String EIP712Message := do
  let domainValue ← okOr (value.get "domain") "Invalid EIP712 JSON: missing domain"
  let domain ← previewDomain crates domainValue
  let typesValue ← okOr ((value.get "types").bind Json.asObject)
    "Invalid EIP712 JSON: missing or invalid types"
  let types ← previewTypes crates typesValue
  let primaryType ← okOr ((value.get "primaryType").bind Json.asStr)
    "Invalid EIP712 JSON: missing or invalid primaryType"
  let messageValue ← okOr (value.get "message") "Invalid EIP712 JSON: missing message"
  let message ← parseValue crates types primaryType messageValue
  let fields ← structFields primaryType message
  .ok ⟨domain, primaryType, fields⟩

/-- `Display` of the signer's error, of which only invalid inputs occur here. -/
def signerErrorText : SignerError → String
  | .invalidInput message => "Invalid input: " ++ message
  | .signingError message => "Signing error: " ++ message
  | .dustThreshold => "transaction amount is below the dust threshold"
  | .insufficientFunds => "insufficient balance"
  | .swapValueBelowMinimum => "swap value after fee is below the provider minimum"

/-- `validate_eip712_chain_id`. -/
def validateEip712ChainId (hashCrates : Crates) (crates : PreviewCrates) (data : String)
    (expectedChainId : ℕ) : Except String Unit := do
  let value ← (hashCrates.parseJson data).mapError fun error => "Invalid EIP712 JSON: " ++ error
  (validateEip712DomainChainIdBinding value).mapError signerErrorText
  let message ← parseEip712Json crates value
  match message.domain.chainId with
  | none => .ok ()
  | some chainId =>
    if chainId ≠ expectedChainId then
      .error s!"Chain ID mismatch: expected {expectedChainId}, got {chainId}"
    else .ok ()

end GemCore.Eip712
