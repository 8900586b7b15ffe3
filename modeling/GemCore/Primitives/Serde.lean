import GemCore.Keystore.Secret
import GemCore.Primitives.Json

/-!
# Reading values out of JSON

What `#[derive(Deserialize)]` reads from a `serde_json::Value`. A struct is read from the entries
of an object under the names of its fields, or from the items of an array in the order of its
fields; what other entries an object has does not matter, while an array has no other items. A
field that is missing is an error, unless it has a default, or is an `Option` of an object.

## Main definitions

* `Fields` — where the fields of a struct come from.
* `Fields.required`, `optional`, `orDefault` — the three kinds of fields.
* `u64`, `bool`, `string`, `vec`, `hexBytes` — the readers of values.

## Main results

* `decodeHexBytes_encodeHex` — the hex text of bytes is read back.
-/

namespace GemCore.Serde

open Keystore (encodeHex isLowerHex)

/-- Why a value is not read; `serde_json` has a text for each. -/
inductive Error where
  | missingField (name : String)
  | invalidLength
  | invalidType
  | unknownVariant (name : String)
  | hex
  | custom (message : String)
  deriving DecidableEq

/-- A reader of values. -/
abbrev Reader (α : Type) : Type := Json → Except Error α

/-! ## Values -/

/-- `u64`. -/
def u64 : Reader UInt64
  | .num (.posInt n) => .ok n
  | _ => .error .invalidType

/-- `bool`. -/
def bool : Reader Bool
  | .bool b => .ok b
  | _ => .error .invalidType

/-- `String`. -/
def string : Reader String
  | .str s => .ok s
  | _ => .error .invalidType

/-- `Vec<T>`. -/
def vec {α : Type} (read : Reader α) : Reader (List α)
  | .arr items => Lib.tryMap read items
  | _ => .error .invalidType

/-- `Option<T>`: `null` is none. -/
def option {α : Type} (read : Reader α) : Reader (Option α)
  | .null => .ok none
  | j => (read j).map some

/-- `Value`: any value is read as it is. -/
def value : Reader Json := fun j => .ok j

/-- `hex_bytes::decode`, after `trim`: the mark may have a capital letter. -/
def dropHexBytesMark : List Char → List Char
  | '0' :: 'x' :: rest => rest
  | '0' :: 'X' :: rest => rest
  | text => text

/-- `hex_bytes::decode`. -/
def decodeHexBytes (value : String) : Option (List UInt8) :=
  let stripped := dropHexBytesMark (trim value.toList)
  if stripped = [] then some []
  else decodeHexPairs (if stripped.length % 2 = 1 then '0' :: stripped else stripped)

/-- `hex_bytes::deserialize`. -/
def hexBytes : Reader (List UInt8) := fun j => do
  let text ← string j
  Lib.okOr (decodeHexBytes text) .hex

/-- `hex_bytes::option::deserialize`. -/
def hexBytesOption : Reader (Option (List UInt8)) := option hexBytes

/-! ## Structs -/

/-- Where the fields of a struct come from. -/
inductive Fields where
  | named (entries : List (String × Json))
  | ordered (items : List Json)

/-- The fields of a struct with `count` of them: `deserialize_struct` of a value. -/
def fields (count : ℕ) : Reader Fields
  | .obj entries => .ok (.named entries)
  | .arr items => if count < items.length then .error .invalidLength else .ok (.ordered items)
  | _ => .error .invalidType

namespace Fields

/-- The value of a field, by its name or by its place among the fields. -/
def find (index : ℕ) (name : String) : Fields → Option Json
  | named entries => Json.lookup entries name
  | ordered items => items[index]?

/-- The error of a field that is not there. -/
def absent (name : String) : Fields → Error
  | named _ => .missingField name
  | ordered _ => .invalidLength

variable {α : Type} (read : Reader α) (index : ℕ) (name : String) (fs : Fields)

/-- A field that must be there. -/
def required : Except Error α :=
  match fs.find index name with
  | some j => read j
  | none => .error (fs.absent name)

/-- A field with `#[serde(default)]`. -/
def orDefault (default : α) : Except Error α :=
  match fs.find index name with
  | some j => read j
  | none => .ok default

/-- An `Option<T>` without `#[serde(default)]`: an object may leave it out. -/
def optional : Except Error (Option α) :=
  match fs.find index name with
  | some j => option read j
  | none =>
    match fs with
    | .named _ => .ok none
    | .ordered _ => .error .invalidLength

variable {read index name} {entries : List (String × Json)} {j : Json} {a : α}

/-- A field of an object that has it. -/
lemma required_named (hfind : Json.lookup entries name = some j) (hread : read j = .ok a) :
    (named entries).required read index name = .ok a := by
  rw [required, find, hfind]
  exact hread

lemma orDefault_named {default : α} (hfind : Json.lookup entries name = some j)
    (hread : read j = .ok a) : (named entries).orDefault read index name default = .ok a := by
  rw [orDefault, find, hfind]
  exact hread

/-- A field that an object has or leaves out, written so that it is not `null`. -/
theorem optional_named {write : α → Json} {value : Option α}
    (hwrite : ∀ a, option read (write a) = .ok (some a))
    (hfind : Json.lookup entries name = value.map write) :
    (named entries).optional read index name = .ok value := by
  rw [optional, find, hfind]
  cases value with
  | none => rfl
  | some a => exact hwrite a

/-- The same for a field whose default is none. -/
lemma orDefault_named_none {read : Reader (Option α)} {write : α → Json} {value : Option α}
    (hwrite : ∀ a, read (write a) = .ok (some a))
    (hfind : Json.lookup entries name = value.map write) :
    (named entries).orDefault read index name none = .ok value := by
  rw [orDefault, find, hfind]
  cases value with
  | none => rfl
  | some a => exact hwrite a

end Fields

/-! ## Hex text -/

/-- The hex digits that are written are neither white space nor the letter of the mark. -/
theorem isLowerHex_spec {c : Char} (hc : isLowerHex c = true) :
    isWhitespace c = false ∧ c ≠ 'x' ∧ c ≠ 'X' := by
  have hrange : 48 ≤ c.toNat ∧ c.toNat ≤ 102 := by
    simp only [isLowerHex, Bool.or_eq_true, Bool.and_eq_true, decide_eq_true_eq, Char.le_def,
      UInt32.le_iff_toNat_le] at hc
    change (48 ≤ c.toNat ∧ c.toNat ≤ 57) ∨ (97 ≤ c.toNat ∧ c.toNat ≤ 102) at hc
    omega
  refine ⟨?_, ?_, ?_⟩
  · simp only [isWhitespace, Bool.or_eq_false_iff, Bool.and_eq_false_iff, decide_eq_false_iff_not,
      beq_eq_false_iff_ne]
    omega
  · rintro rfl
    exact absurd hrange.2 (by decide)
  · rintro rfl
    exact absurd hc (by decide)

/-- Text without white space is not trimmed. -/
lemma trim_of_forall {text : List Char} (h : ∀ c ∈ text, isWhitespace c = false) :
    trim text = text := by
  have hdrop : ∀ l : List Char, (∀ c ∈ l, isWhitespace c = false) →
      l.dropWhile isWhitespace = l := by
    intro l hl
    cases l with
    | nil => rfl
    | cons c l => rw [List.dropWhile_cons_of_neg (by simp [hl c List.mem_cons_self])]
  rw [trim, hdrop text h, hdrop _ (fun c hc => h c (List.mem_reverse.mp hc)), List.reverse_reverse]

lemma trim_encodeHex (bytes : List UInt8) :
    trim (encodeHex bytes).toList = (encodeHex bytes).toList :=
  trim_of_forall fun _ hc =>
    (isLowerHex_spec (List.all_eq_true.mp (Keystore.isLowerHex_encodeHex bytes) _ hc)).1

lemma dropHexBytesMark_of_forall {text : List Char} (h : ∀ c ∈ text, c ≠ 'x' ∧ c ≠ 'X') :
    dropHexBytesMark text = text := by
  unfold dropHexBytesMark
  split
  · exact absurd rfl (h 'x' (by simp)).1
  · exact absurd rfl (h 'X' (by simp)).2
  · rfl

lemma dropHexMark_of_forall {text : List Char} (h : ∀ c ∈ text, c ≠ 'x') :
    dropHexMark text = text := by
  unfold dropHexMark
  split
  · exact absurd rfl (h 'x' (by simp))
  · rfl

/-- The decoders read an even text without a mark pair by pair. -/
lemma decodeStripped_encodeHex (bytes : List UInt8) :
    (if (encodeHex bytes).toList = [] then some []
      else decodeHexPairs (if (encodeHex bytes).toList.length % 2 = 1 then
        '0' :: (encodeHex bytes).toList else (encodeHex bytes).toList)) = some bytes := by
  have heven : ¬(encodeHex bytes).toList.length % 2 = 1 := by
    rw [Keystore.length_encodeHex]
    omega
  have hpairs := Keystore.decodeHexPairs_encodeHex bytes
  rw [if_neg heven]
  split
  case isTrue hnil =>
    rw [hnil] at hpairs
    exact hpairs
  case isFalse => exact hpairs

/-- **`hex_bytes` reads back what `hex::encode` writes.** -/
theorem decodeHexBytes_encodeHex (bytes : List UInt8) :
    decodeHexBytes (encodeHex bytes) = some bytes := by
  have hmark : dropHexBytesMark (encodeHex bytes).toList = (encodeHex bytes).toList :=
    dropHexBytesMark_of_forall fun _ hc =>
      (isLowerHex_spec (List.all_eq_true.mp (Keystore.isLowerHex_encodeHex bytes) _ hc)).2
  rw [decodeHexBytes, trim_encodeHex, hmark]
  exact decodeStripped_encodeHex bytes

/-- `decode_hex` reads back what `hex::encode` writes. -/
lemma decodeHex_encodeHex (bytes : List UInt8) : decodeHex (encodeHex bytes) = some bytes := by
  have hmark : dropHexMark (encodeHex bytes).toList = (encodeHex bytes).toList :=
    dropHexMark_of_forall fun _ hc =>
      (isLowerHex_spec (List.all_eq_true.mp (Keystore.isLowerHex_encodeHex bytes) _ hc)).2.1
  rw [decodeHex, trim_encodeHex, hmark]
  exact decodeStripped_encodeHex bytes

/-- Bytes are read back from the value they are written as. -/
@[simp] lemma hexBytes_encodeHex (bytes : List UInt8) :
    hexBytes (.str (encodeHex bytes)) = .ok bytes := by
  show Lib.okOr (decodeHexBytes (encodeHex bytes)) Error.hex = _
  rw [decodeHexBytes_encodeHex, Lib.okOr_some]

@[simp] lemma hexBytesOption_encodeHex (bytes : List UInt8) :
    hexBytesOption (.str (encodeHex bytes)) = .ok (some bytes) := by
  show (hexBytes (.str (encodeHex bytes))).map some = _
  rw [hexBytes_encodeHex]
  rfl

end GemCore.Serde
