import GemCore.Aptos.TypeTag
import GemCore.Lib.Bcs
import GemCore.Lib.Decimal
import GemCore.Primitives.Json

/-!
# Arguments of Move functions

How the JSON arguments of an entry function become bytes: `infer_type_tags` and `encode_argument` of
`gem_aptos/src/move/parser.rs`, the values of `gem_aptos/src/move/values.rs` and
`EntryFunctionPayload::to_entry_function` of `gem_aptos/src/signer/payload.rs`.

## Main definitions

* `MoveValue` — a value, with its bytes `serialize`.
* `parseMoveValue` — a value of a type from JSON.
* `inferTypeTag` — the type that is assumed without an ABI.
* `encodeArgument`, `EntryFunctionPayload.toEntryFunction` — the entry points.
-/

namespace GemCore.Aptos

open Lib

/-- What comes from the crates `hex`, `num-bigint` and `bcs`: `BigUint::parse_bytes` with ten digits, and
the text of the error for a sequence that is too long. -/
structure ArgumentLib extends HexLib where
  parseBytes : List Char → Option ℕ
  bcsError : String

/-! ## Values -/

/-- `MoveValue`. -/
inductive MoveValue where
  | bool (value : Bool)
  | u8 (value : BitVec 8)
  | u16 (value : BitVec 16)
  | u32 (value : BitVec 32)
  | u64 (value : BitVec 64)
  | u128 (value : BitVec 128)
  | u256 (value : FixedBytes 32)
  | address (value : AccountAddress)
  | signer (value : AccountAddress)
  | vector (values : List MoveValue)

mutual

/-- `serialize`, as the crate `bcs` writes it. -/
def MoveValue.serialize : MoveValue → Option (List UInt8)
  | .bool value => some (Bcs.writeBool value)
  | .u8 value => some (leBytes 1 value.toNat)
  | .u16 value => some (leBytes 2 value.toNat)
  | .u32 value => some (leBytes 4 value.toNat)
  | .u64 value => some (leBytes 8 value.toNat)
  | .u128 value => some (leBytes 16 value.toNat)
  | .u256 value => some value.val
  | .address value => some value.val
  | .signer value => some value.val
  | .vector values => (MoveValue.serializeAll values).bind Bcs.writeSeq

/-- The bytes of each element of a vector. -/
def MoveValue.serializeAll : List MoveValue → Option (List (List UInt8))
  | [] => some []
  | first :: rest => do
    let bytes ← first.serialize
    let others ← MoveValue.serializeAll rest
    some (bytes :: others)

end

/-! ## Numbers -/

/-- `starts_with("0x")`. -/
def hasHexMark (text : List Char) : Bool := text.take 2 = ['0', 'x']

/-- `parse_numeric_string`, of which `NumericInput` is the two values that are numbers. -/
def parseNumericString (value : Json) (label : String) : Except SignerError (List Char) :=
  match value with
  | .num number => .ok number.text.toList
  | .str text => .ok text.toList
  | _ => .error (.invalidInput s!"Invalid Aptos {label} argument")

/-- `decode_hex`, with the error it is turned into. -/
def decodeHexBytes (lib : HexLib) (text : List Char) : Except SignerError (List UInt8) :=
  okOr (decodeHex (String.ofList text)) (.invalidInput (lib.error text))

/-- `str::parse::<u8>`: digits, behind a plus sign or not, of a number below 256. -/
def parseU8Text (text : List Char) : Option (BitVec 8) :=
  let digits := Decimal.stripPlus text
  if digits ≠ [] ∧ digits.all Char.isDigit ∧ Decimal.value digits < 256 then
    some (BitVec.ofNat 8 (Decimal.value digits))
  else none

/-- `parse_u8_from_str`. -/
def parseU8FromStr (lib : ArgumentLib) (text : List Char) : Except SignerError (BitVec 8) :=
  if hasHexMark (trim text) then do
    match ← decodeHexBytes lib.toHexLib text with
    | [byte] => .ok byte.toBitVec
    | _ => .error (.invalidInput "Invalid Aptos u8 argument")
  else okOr (parseU8Text (trim text)) (.invalidInput "Invalid Aptos u8 argument")

/-- `parse_u8`. -/
def parseU8 (lib : ArgumentLib) (value : Json) : Except SignerError (BitVec 8) := do
  let text ← parseNumericString value "u8"
  parseU8FromStr lib text

/-- `parse_big_uint_from_str`. -/
def parseBigUintFromStr (lib : ArgumentLib) (text : List Char) (label : String) :
    Except SignerError ℕ :=
  let trimmed := trim text
  if hasHexMark trimmed then do
    let bytes ← decodeHexBytes lib.toHexLib trimmed
    .ok (ofBe bytes)
  else okOr (lib.parseBytes trimmed) (.invalidInput s!"Invalid Aptos {label} argument")

/-- `parse_unsigned_from_str`, for a type of at most 128 bits, of a numeric value. -/
def parseUnsigned (lib : ArgumentLib) (bits : ℕ) (label : String) (value : Json) :
    Except SignerError (BitVec bits) := do
  let text ← parseNumericString value label
  let n ← parseBigUintFromStr lib text label
  if n < 2 ^ 128 ∧ n < 2 ^ bits then .ok (BitVec.ofNat bits n)
  else .error (.invalidInput s!"Invalid Aptos {label} argument")

/-- `parse_u16`. -/
def parseU16 (lib : ArgumentLib) : Json → Except SignerError (BitVec 16) := parseUnsigned lib 16 "u16"

/-- `parse_u32`. -/
def parseU32 (lib : ArgumentLib) : Json → Except SignerError (BitVec 32) := parseUnsigned lib 32 "u32"

/-- `parse_u64`. -/
def parseU64 (lib : ArgumentLib) : Json → Except SignerError (BitVec 64) := parseUnsigned lib 64 "u64"

/-- `parse_u128`. -/
def parseU128 (lib : ArgumentLib) : Json → Except SignerError (BitVec 128) :=
  parseUnsigned lib 128 "u128"

/-- `parse_u256`. -/
def parseU256 (lib : ArgumentLib) (value : Json) : Except SignerError (FixedBytes 32) := do
  let text ← parseNumericString value "u256"
  let n ← parseBigUintFromStr lib text "u256"
  if n < 256 ^ 32 then .ok ⟨leBytes 32 n, length_leBytes 32 n⟩
  else .error (.invalidInput "Aptos u256 argument too large")

/-! ## Other values -/

/-- `to_lowercase` of a text that is compared with letters from `a` to `z`: no character outside ASCII
becomes one of those of `true` and `false`. -/
def toLowercase (text : List Char) : List Char := text.map Char.toLower

/-- `parse_bool`. -/
def parseBool : Json → Except SignerError Bool
  | .bool value => .ok value
  | .num number => .ok ((number.asU64.getD 0) != 0)
  | .str text =>
    let lower := toLowercase (trim text.toList)
    if lower = "true".toList then .ok true
    else if lower = "false".toList then .ok false
    else .error (.invalidInput "Invalid Aptos bool argument")
  | _ => .error (.invalidInput "Invalid Aptos bool argument")

/-- `parse_address`. -/
def parseAddress (lib : ArgumentLib) : Json → Except SignerError AccountAddress
  | .str text => AccountAddress.fromHex lib.toHexLib text.toList
  | .num number => AccountAddress.fromHex lib.toHexLib number.text.toList
  | _ => .error (.invalidInput "Invalid Aptos address argument")

/-- `is_option_struct`. -/
def isOptionStruct (address : AccountAddress) (moduleName name : List Char) : Bool :=
  address = .one ∧ moduleName = "option".toList ∧ name = "Option".toList

/-- `parse_move_value`, with `parse_vector` and `parse_struct`. -/
def parseMoveValue (lib : ArgumentLib) : TypeTag → Json → Except SignerError MoveValue
  | .bool, value => (parseBool value).map .bool
  | .u8, value => (parseU8 lib value).map .u8
  | .u16, value => (parseU16 lib value).map .u16
  | .u32, value => (parseU32 lib value).map .u32
  | .u64, value => (parseU64 lib value).map .u64
  | .u128, value => (parseU128 lib value).map .u128
  | .u256, value => (parseU256 lib value).map .u256
  | .address, value => (parseAddress lib value).map .address
  | .signer, value => (parseAddress lib value).map .signer
  | .vector inner, value =>
    match value with
    | .arr values => (tryMap (parseMoveValue lib inner) values).map .vector
    | .str text =>
      match inner with
      | .u8 => do
        let bytes ← decodeHexBytes lib.toHexLib text.toList
        .ok (.vector (bytes.map fun byte => .u8 byte.toBitVec))
      | _ => .error (.invalidInput "Invalid Aptos vector argument")
    | _ => .error (.invalidInput "Invalid Aptos vector argument")
  | .struct address moduleName name typeArgs, value =>
    if isOptionStruct address moduleName name then
      match typeArgs with
      | [] => .error (.invalidInput "Option type missing inner type")
      | inner :: _ =>
        match value with
        | .null => .ok (.vector [])
        | value => do
          let innerValue ← parseMoveValue lib inner value
          .ok (.vector [innerValue])
    else .error (.invalidInput "Unsupported Aptos struct argument")

/-- `encode_argument`. -/
def encodeArgument (lib : ArgumentLib) (value : Json) (argType : TypeTag) :
    Except SignerError (List UInt8) := do
  let moveValue ← parseMoveValue lib argType value
  okOr moveValue.serialize (.invalidInput s!"Failed to encode Aptos argument: {lib.bcsError}")

/-! ## Inferred types -/

/-- `is_u8_value`. -/
def isU8Value (lib : ArgumentLib) : Json → Bool
  | .num number => (number.asU64.map fun n => decide (n ≤ 255)).getD false
  | .str text => (parseU8FromStr lib text.toList).toBool
  | _ => false

/-- `is_address_value`. -/
def isAddressValue : Json → Bool
  | .str text => hasHexMark (trim text.toList)
  | _ => false

/-- `infer_vector_type`; a vector without elements has only elements of either kind. -/
def inferVectorType (lib : ArgumentLib) (values : List Json) : TypeTag :=
  if values.isEmpty then .vector .u8
  else if values.all (isU8Value lib) then .vector .u8
  else if values.all isAddressValue then .vector .address
  else .vector .u64

/-- `infer_type_tag`. -/
def inferTypeTag (lib : ArgumentLib) : Json → Except SignerError TypeTag
  | .bool _ => .ok .bool
  | .num _ => .ok .u64
  | .str text => .ok (if hasHexMark (trim text.toList) then .address else .u64)
  | .arr values => .ok (inferVectorType lib values)
  | .null => .error (.invalidInput "Cannot infer Aptos type from null")
  | .obj _ => .error (.invalidInput "Unsupported Aptos object argument")

/-- `infer_type_tags`. -/
def inferTypeTags (lib : ArgumentLib) (arguments : List Json) : Except SignerError (List TypeTag) :=
  tryMap (inferTypeTag lib) arguments

/-! ## Entry functions -/

/-- `ModuleId`. -/
structure ModuleId where
  address : AccountAddress
  name : List Char

/-- `EntryFunction`. -/
structure EntryFunction where
  moduleId : ModuleId
  function : List Char
  tyArgs : List TypeTag
  args : List (List UInt8)

/-- `EntryFunctionPayload`. -/
structure EntryFunctionPayload where
  payloadType : String
  function : String
  typeArguments : List String
  arguments : List Json

/-- `ENTRY_FUNCTION_PAYLOAD_TYPE`. -/
def entryFunctionPayloadType : String := "entry_function_payload"

/-- `parse_function_id`. -/
def parseFunctionId (lib : HexLib) (functionId : List Char) :
    Except SignerError (ModuleId × List Char) :=
  match splitColons functionId with
  | [address, moduleName, function] => do
    let address ← AccountAddress.fromHex lib address
    .ok (⟨address, moduleName⟩, function)
  | _ => .error (.invalidInput "Invalid Aptos function id")

/-- The types of the arguments: those of the ABI, or else those that are inferred. -/
def EntryFunctionPayload.argTypes (lib : ArgumentLib) (payload : EntryFunctionPayload) :
    Option (List String) → Except SignerError (List TypeTag)
  | some abiTypes =>
    if abiTypes.length ≠ payload.arguments.length then
      .error (.invalidInput "Aptos ABI length does not match arguments")
    else tryMap (fun arg => parseTypeTag lib.toHexLib arg.toList) abiTypes
  | none => inferTypeTags lib payload.arguments

/-- `to_entry_function`. -/
def EntryFunctionPayload.toEntryFunction (lib : ArgumentLib) (payload : EntryFunctionPayload)
    (abi : Option (List String)) : Except SignerError EntryFunction :=
  if payload.payloadType ≠ entryFunctionPayloadType then
    .error (.invalidInput s!"Unsupported Aptos payload type: {payload.payloadType}")
  else do
    let (moduleId, function) ← parseFunctionId lib.toHexLib payload.function.toList
    let tyArgs ← tryMap (fun arg => parseTypeTag lib.toHexLib arg.toList) payload.typeArguments
    let argTypes ← payload.argTypes lib abi
    let args ← tryMap (fun pair => encodeArgument lib pair.1 pair.2) (payload.arguments.zip argTypes)
    .ok ⟨moduleId, function, tyArgs, args⟩

end GemCore.Aptos
