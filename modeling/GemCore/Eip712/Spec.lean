import GemCore.Eip712.Hash
import Mathlib.Data.Finset.Sort

/-!
# The EIP-712 specification

What a typed-data document means and how it is hashed, in the terms of the specification: struct
types are declared by a schema, a piece of JSON denotes a value of a type, and a value has an
encoding in a word of 32 bytes. Nothing here is taken from the signer except the arithmetic of
words and the reading of hex text.

The spellings of a value that `Denotes` admits are those the signer means to accept: integers as
numbers or as texts, booleans also as integers, and fixed byte strings of any length up to the
declared one, which stand for the bytes filled up with zeros.

## Main definitions

* `Schema` — a well-formed table of struct types.
* `Schema.encodeType` — the text of a struct type: the type itself, then every struct type that is
  reached from it, once, in the order of the names.
* `Val`, `encodeVal` — values and their encodings.
* `Denotes` — which JSON stands for which value of a type.
-/

namespace GemCore.Eip712

open Lib

/-! ## Schemas -/

/-- A table of struct types: the names are names of structs, every struct that is mentioned is
declared, and there is a type for the domain. -/
structure Schema where
  structs : List (String × List (String × Ty))
  isStructName : ∀ s ∈ structs, IsStructName s.1
  declared : ∀ s ∈ structs, ∀ f ∈ s.2, ∀ name, f.2.base = .struct name →
    name ∈ structs.map Prod.fst
  domain : "EIP712Domain" ∈ structs.map Prod.fst

namespace Schema

variable (S : Schema)

/-- The fields of a struct. -/
def fields (name : String) : Option (List (String × Ty)) := S.structs.lookup name

/-- The struct `a` has a field whose type is made of the struct `b`. -/
def Uses (a b : String) : Prop :=
  ∃ fs, S.fields a = some fs ∧ ∃ f ∈ fs, f.2.base = .struct b

open Classical in
/-- The structs that are reached from a struct. -/
noncomputable def reachable (name : String) : Finset String :=
  (S.structs.map Prod.fst).toFinset.filter (Relation.ReflTransGen S.Uses name)

lemma mem_reachable_iff {name other : String} : other ∈ S.reachable name ↔
    other ∈ S.structs.map Prod.fst ∧ Relation.ReflTransGen S.Uses name other := by
  simp only [reachable, Finset.mem_filter, List.mem_toFinset]

/-- A struct, then the others that are reached from it in the order of their names. -/
noncomputable def typeList (name : String) : List String :=
  name :: ((S.reachable name).erase name).sort (· ≤ ·)

/-- One struct in the text of a type. -/
def memberText (name : String) : String :=
  name ++ "(" ++
    ",".intercalate (((S.fields name).getD []).map fun f => f.2.text ++ " " ++ f.1) ++ ")"

/-- `encodeType` of the specification. -/
noncomputable def encodeType (name : String) : String :=
  String.join ((S.typeList name).map S.memberText)

/-- `typeHash` of the specification. -/
noncomputable def typeHash (crates : Crates) (name : String) : Word :=
  crates.keccak256 (Keystore.utf8 (S.encodeType name))

end Schema

/-- A type whose struct, if it is made of one, is declared. -/
def Ty.Declared (S : Schema) (t : Ty) : Prop :=
  ∀ name, t.base = .struct name → (S.fields name).isSome

/-! ## Values -/

/-- The values of the types. -/
inductive Val where
  | uint (n : ℕ)
  | int (z : ℤ)
  | bool (b : Bool)
  | address (bytes : FixedBytes 20)
  | fixedBytes (width : Fin 32) (bytes : FixedBytes (byteSize width))
  | string (s : String)
  | bytes (bytes : List UInt8)
  | array (items : List Val)
  | struct (name : String) (fields : List (String × Val))

/-- The word of an address. -/
def addressWord (bytes : FixedBytes 20) : Word :=
  ⟨List.replicate 12 0 ++ bytes.val, by simp [bytes.property]⟩

/-- The word of a fixed byte string. -/
def fixedBytesWord (width : Fin 32) (bytes : FixedBytes (byteSize width)) : Word :=
  ⟨bytes.val ++ List.replicate (32 - byteSize width) 0, by
    have h := width.isLt
    simp only [List.length_append, bytes.property, List.length_replicate, byteSize]
    omega⟩

section

variable (crates : Crates) (typeHash : String → Word)

mutual

/-- `encodeData` of the specification, on one value. -/
def encodeVal : Val → Word
  | .uint n => toBeBytes n
  | .int z => toBeBytes (z % 2 ^ 256).toNat
  | .bool b => toBeBytes b.toNat
  | .address bytes => addressWord bytes
  | .fixedBytes width bytes => fixedBytesWord width bytes
  | .string s => crates.keccak256 (Keystore.utf8 s)
  | .bytes bytes => crates.keccak256 bytes
  | .array items => crates.keccak256 ((encodeVals items).map Subtype.val).flatten
  | .struct name fields => structHash crates (typeHash name) (encodeFields fields)

/-- The words of the items of an array. -/
def encodeVals : List Val → List Word
  | [] => []
  | v :: vs => encodeVal v :: encodeVals vs

/-- The words of the fields of a struct. -/
def encodeFields : List (String × Val) → List Word
  | [] => []
  | (_, v) :: fs => encodeVal v :: encodeFields fs

end

end

/-! ## What a document says -/

/-- The bytes of a hex text, with an optional `0x` in front. -/
def hexText (text : String) : Option (List UInt8) := decodeHexPairs (dropHexMark text.toList)

/-- Bytes, filled up with zeros on the right. -/
def padTo (width : Fin 32) (short : List UInt8) (h : short.length ≤ byteSize width) :
    FixedBytes (byteSize width) :=
  ⟨short ++ List.replicate (byteSize width - short.length) 0, by simp [Nat.add_sub_cancel' h]⟩

mutual

/-- A piece of JSON denotes a value of a type. -/
inductive Denotes (crates : Crates) (S : Schema) : Ty → Json → Val → Prop
  | uintText {w s n} (htext : crates.parseU256 s = .ok n) (hrange : n < 2 ^ (8 * byteSize w)) :
    Denotes crates S (.uint w) (.str s) (.uint n)
  | uintNumber {w x} {n : ℕ} (hnumber : x.int = some (n : ℤ))
    (hrange : n < 2 ^ (8 * byteSize w)) : Denotes crates S (.uint w) (.num x) (.uint n)
  | intText {w s z} (htext : crates.parseI256 s = .ok z)
    (hrange : -2 ^ (8 * byteSize w - 1) ≤ z ∧ z < 2 ^ (8 * byteSize w - 1)) :
    Denotes crates S (.int w) (.str s) (.int z)
  | intNumber {w x z} (hnumber : x.int = some z)
    (hrange : -2 ^ (8 * byteSize w - 1) ≤ z ∧ z < 2 ^ (8 * byteSize w - 1)) :
    Denotes crates S (.int w) (.num x) (.int z)
  | bool {b} : Denotes crates S .bool (.bool b) (.bool b)
  | boolNumber {x z} (hnumber : x.int = some z) :
    Denotes crates S .bool (.num x) (.bool (z ≠ 0))
  | address {s bytes} (htext : hexText s = some bytes.val) :
    Denotes crates S .address (.str s) (.address bytes)
  | fixedBytes {w s short} (htext : hexText s = some short) (hsize : short.length ≤ byteSize w) :
    Denotes crates S (.fixedBytes w) (.str s) (.fixedBytes w (padTo w short hsize))
  | string {s} : Denotes crates S .string (.str s) (.string s)
  | bytes {s bytes} (htext : hexText s = some bytes) :
    Denotes crates S .bytes (.str s) (.bytes bytes)
  | array {t length items vs} (hlength : ∀ n, length = some n → items.length = n.toNat)
    (hitems : DenotesItems crates S t items vs) :
    Denotes crates S (.array t length) (.arr items) (.array vs)
  | struct {name fields entries vs} (hfields : S.fields name = some fields)
    (hvalues : DenotesFields crates S entries fields vs) :
    Denotes crates S (.struct name) (.obj entries) (.struct name vs)

/-- The items of an array denote values of its element type. -/
inductive DenotesItems (crates : Crates) (S : Schema) : Ty → List Json → List Val → Prop
  | nil {t} : DenotesItems crates S t [] []
  | cons {t j v items vs} (hitem : Denotes crates S t j v) (hitems : DenotesItems crates S t items vs) :
    DenotesItems crates S t (j :: items) (v :: vs)

/-- The entries of an object denote a value for each field. -/
inductive DenotesFields (crates : Crates) (S : Schema) :
    List (String × Json) → List (String × Ty) → List (String × Val) → Prop
  | nil {entries} : DenotesFields crates S entries [] []
  | cons {entries f j v fs vs} (hentry : Json.lookup entries f.1 = some j)
    (hvalue : Denotes crates S f.2 j v) (hvalues : DenotesFields crates S entries fs vs) :
    DenotesFields crates S entries (f :: fs) ((f.1, v) :: vs)

end

end GemCore.Eip712
