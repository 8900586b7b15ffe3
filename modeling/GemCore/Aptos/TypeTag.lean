import GemCore.Keystore.Secret
import GemCore.Primitives.SignerError
import Mathlib.Data.List.Infix

/-!
# Type tags of Move

The addresses of `gem_aptos/src/address.rs`, the type tags of `gem_aptos/src/move/types.rs` and their
parser in `gem_aptos/src/move/parser.rs`. A text is a list of characters. The counters of the source for
the depth of the brackets have 32 bits, which no text is long enough to overflow.

## Main definitions

* `AccountAddress`, `TypeTag` — addresses and type tags.
* `findTopLevelChar`, `splitTypeArgs` — the two loops over brackets.
* `parseTypeTag` — the parser.
* `TypeTag.render` — the usual text of a type tag.
-/

namespace GemCore.Aptos

/-! ## Addresses -/

/-- `AccountAddress`. -/
abbrev AccountAddress := Lib.FixedBytes 32

/-- The texts of the errors of the crate `hex`. -/
structure HexLib where
  error : List Char → String

namespace AccountAddress

/-- `from_bytes`: shorter byte strings are padded in front. -/
def fromBytes (bytes : List UInt8) : Except SignerError AccountAddress :=
  if h : bytes.length ≤ 32 then
    .ok ⟨List.replicate (32 - bytes.length) 0 ++ bytes, by
      rw [List.length_append, List.length_replicate]
      omega⟩
  else .error (.invalidInput "Aptos address too long")

/-- `from_hex`. -/
def fromHex (lib : HexLib) (value : List Char) : Except SignerError AccountAddress := do
  let bytes ← Lib.okOr (decodeHex (String.ofList value)) (.invalidInput (lib.error value))
  fromBytes bytes

/-- `one`. -/
def one : AccountAddress := ⟨List.replicate 31 0 ++ [1], rfl⟩

/-- `Display`. -/
def text (address : AccountAddress) : List Char := '0' :: 'x' :: (Keystore.encodeHex address.val).toList

end AccountAddress

/-! ## Type tags -/

/-- `TypeTag`, with the fields of its `StructTag`. -/
inductive TypeTag where
  | bool
  | u8
  | u16
  | u32
  | u64
  | u128
  | u256
  | address
  | signer
  | vector (inner : TypeTag)
  | struct (address : AccountAddress) (moduleName name : List Char) (typeArgs : List TypeTag)

/-- The types that are names, with their names. -/
def primitiveTypes : List (String × TypeTag) :=
  [("bool", .bool), ("u8", .u8), ("u16", .u16), ("u32", .u32), ("u64", .u64), ("u128", .u128),
    ("u256", .u256), ("address", .address), ("signer", .signer), ("&signer", .signer)]

/-! ## Scanning -/

/-- How a bracket changes the depth. -/
def nextDepth (depth : ℕ) (c : Char) : ℕ :=
  if c = '<' then depth + 1 else if c = '>' then depth - 1 else depth

/-- `find_top_level_char`: the text before and the text after the first occurrence outside brackets. -/
def findTopLevelChar (target : Char) : List Char → ℕ → Option (List Char × List Char)
  | [], _ => none
  | c :: rest, depth =>
    if depth = 0 ∧ c = target then some ([], rest)
    else (findTopLevelChar target rest (nextDepth depth c)).map fun found => (c :: found.1, found.2)

/-- An argument of `split_type_args`, left out when nothing remains of it. -/
def pushArg (args : List (List Char)) (arg : List Char) : List (List Char) :=
  if trim arg = [] then args else args ++ [trim arg]

/-- The loop of `split_type_args`: `current` is the text since `start`. -/
def splitTypeArgsLoop : List Char → ℕ → List Char → List (List Char) →
    Except SignerError (List (List Char))
  | [], _, current, args => .ok (pushArg args current)
  | c :: rest, depth, current, args =>
    if c = '>' ∧ depth = 0 then .error (.invalidInput "Invalid Aptos type arguments")
    else if c = ',' ∧ depth = 0 then splitTypeArgsLoop rest depth [] (pushArg args current)
    else splitTypeArgsLoop rest (nextDepth depth c) (current ++ [c]) args

/-- `split_type_args`. -/
def splitTypeArgs (input : List Char) : Except SignerError (List (List Char)) :=
  splitTypeArgsLoop input 0 [] []

/-- `split("::")`. -/
def splitColons : List Char → List (List Char)
  | [] => [[]]
  | ':' :: ':' :: rest => [] :: splitColons rest
  | c :: rest =>
    match splitColons rest with
    | first :: others => (c :: first) :: others
    | [] => [[c]]

/-! ## The parser -/

/-- What starts a vector. -/
def vectorMark : List Char := ['v', 'e', 'c', 't', 'o', 'r', '<']

/-- `MAX_TYPE_TAG_DEPTH`. -/
def maxTypeTagDepth : ℕ := 64

/-- The base and the arguments of a struct tag, as `parse_struct_tag_at_depth` cuts them apart. -/
def splitStruct (value : List Char) : Except SignerError (List Char × Option (List Char)) :=
  match findTopLevelChar '<' value 0 with
  | some (base, rest) =>
    if value.getLast? ≠ some '>' then .error (.invalidInput "Invalid Aptos struct tag")
    else .ok (base, some rest.dropLast)
  | none => .ok (value, none)

/-- The address, the module and the name of a struct tag. -/
def parseBase (lib : HexLib) (base : List Char) :
    Except SignerError (AccountAddress × List Char × List Char) :=
  match splitColons base with
  | [address, moduleName, name] => do
    let address ← AccountAddress.fromHex lib address
    .ok (address, moduleName, name)
  | _ => .error (.invalidInput "Invalid Aptos struct tag")

/-- `parse_type_tag_at_depth`, with `parse_struct_tag_at_depth`. The number counts the levels that are
left: it is zero where the depth is over the limit. -/
def parseTypeTagAtDepth (lib : HexLib) : ℕ → List Char → Except SignerError TypeTag
  | 0, _ => .error (.invalidInput "Aptos type tag nesting too deep")
  | left + 1, value =>
    let trimmed := trim value
    match primitiveTypes.lookup (String.ofList trimmed) with
    | some tag => .ok tag
    | none =>
      if vectorMark <+: trimmed ∧ trimmed.getLast? = some '>' then do
        let inner ← parseTypeTagAtDepth lib left (trimmed.drop vectorMark.length).dropLast
        .ok (.vector inner)
      else do
        let (base, args) ← splitStruct trimmed
        let (address, moduleName, name) ← parseBase lib base
        match args with
        | some args => do
          let args ← splitTypeArgs args
          let typeArgs ← Lib.tryMap (parseTypeTagAtDepth lib left) args
          .ok (.struct address moduleName name typeArgs)
        | none => .ok (.struct address moduleName name [])

/-- `parse_type_tag`. -/
def parseTypeTag (lib : HexLib) (value : List Char) : Except SignerError TypeTag :=
  parseTypeTagAtDepth lib (maxTypeTagDepth + 1) value

/-! ## Texts of type tags -/

namespace TypeTag

mutual

/-- How deep the arguments of a type tag are nested. -/
def nesting : TypeTag → ℕ
  | vector inner => inner.nesting + 1
  | struct _ _ _ typeArgs => nestingArgs typeArgs
  | _ => 0

/-- How deep a list of arguments is nested, counted from outside. -/
def nestingArgs : List TypeTag → ℕ
  | [] => 0
  | first :: rest => max (first.nesting + 1) (nestingArgs rest)

end

mutual

/-- The usual text of a type tag: `address::module::Name<arg, ...>`, `vector<T>` or a name. -/
def render : TypeTag → List Char
  | vector inner => vectorMark ++ inner.render ++ ['>']
  | struct a moduleName name typeArgs => a.text ++ "::".toList ++ moduleName ++ "::".toList ++ name ++
      if typeArgs.isEmpty then [] else '<' :: (", ".toList.intercalate (renderArgs typeArgs) ++ ['>'])
  | bool => "bool".toList
  | u8 => "u8".toList
  | u16 => "u16".toList
  | u32 => "u32".toList
  | u64 => "u64".toList
  | u128 => "u128".toList
  | u256 => "u256".toList
  | address => "address".toList
  | signer => "signer".toList

/-- The texts of a list of arguments. -/
def renderArgs : List TypeTag → List (List Char)
  | [] => []
  | first :: rest => first.render :: renderArgs rest

end

end TypeTag

end GemCore.Aptos
