import GemCore.Eip712.Conformance
import GemCore.Eip712.Preview
import GemCore.Keystore.Secret

/-!
# The preview shows what is hashed

On a document on which both the preview and the signer succeed, the tree that is shown and the data
that is hashed describe the same message: the same structs and arrays with the same fields in the
same order, and leaf by leaf the same value. Fixed byte strings are shown as they are written and
hashed filled up with zeros to the declared length.

## Main definitions

* `CratesAgree` — what is asked of the integer parsers and of address checksums.
* `Shows` — a tree shows a value.
* `IsIntegerName` — the names of the integer types.

## Main results

* `parseValue_shows` — every value.
* `preview_agrees` — the whole document, with the chain of its domain.
-/

namespace GemCore.Eip712

open Lib

/-! ## What is shown -/

/-- What is asked of the other crates: integers are read back from their decimal digits, a number
that fits 64 bits is read the same with 256 bits, and the checksum of an address is its hex text. -/
structure CratesAgree (crates : Crates) (preview : PreviewCrates) : Prop where
  uint_decimal : ∀ n : ℕ, n < 2 ^ 256 → crates.parseU256 (toString n) = .ok n
  int_decimal : ∀ z : ℤ, -2 ^ 255 ≤ z → z < 2 ^ 255 → crates.parseI256 (toString z) = .ok z
  uint_u64 : ∀ s n m, crates.parseU256 s = .ok n → parseU64String s = some m → n = m
  int_u64 : ∀ s z m, crates.parseI256 s = .ok z → parseU64String s = some m → z = m
  checksum : ∀ bytes, hexText (preview.checksum bytes) = some bytes.val

mutual

/-- A tree shows a value: an integer by a text that denotes it, an address by its hex text, fixed
bytes up to the zeros at their end, everything else as it is. -/
inductive Shows (crates : Crates) : TypedValue → Val → Prop
  | address {text bytes} (htext : hexText text = some bytes.val) :
    Shows crates (.address text) (.address bytes)
  | uint {text n} (htext : crates.parseU256 text = .ok n) : Shows crates (.uint256 text) (.uint n)
  | int {text z} (htext : crates.parseI256 text = .ok z) : Shows crates (.int256 text) (.int z)
  | string {s} : Shows crates (.string s) (.string s)
  | bool {b} : Shows crates (.bool b) (.bool b)
  | bytes {bytes} : Shows crates (.bytes bytes) (.bytes bytes)
  | fixedBytes {w short} (hsize : short.length ≤ byteSize w) :
    Shows crates (.bytes short) (.fixedBytes w (padTo w short hsize))
  | array {items vs} (hitems : ShowsItems crates items vs) :
    Shows crates (.array items) (.array vs)
  | struct {name fields vs} (hfields : ShowsFields crates fields vs) :
    Shows crates (.struct fields) (.struct name vs)

/-- The items of an array, one by one. -/
inductive ShowsItems (crates : Crates) : List TypedValue → List Val → Prop
  | nil : ShowsItems crates [] []
  | cons {x v items vs} (hitem : Shows crates x v) (hitems : ShowsItems crates items vs) :
    ShowsItems crates (x :: items) (v :: vs)

/-- The fields of a struct, one by one, with their names. -/
inductive ShowsFields (crates : Crates) : List (String × TypedValue) → List (String × Val) → Prop
  | nil : ShowsFields crates [] []
  | cons {name x v fields vs} (hvalue : Shows crates x v)
    (hfields : ShowsFields crates fields vs) :
    ShowsFields crates ((name, x) :: fields) ((name, v) :: vs)

end

/-- The hash of a type of a table. -/
def tableTypeHash (crates : Crates) (types : Types) (name : String) : Word :=
  match hashType crates types name with
  | .ok word => word
  | .error _ => leftPad []

lemma tableTypeHash_eq {crates : Crates} {types : Types} {name : String} {word : Word}
    (h : hashType crates types name = .ok word) : tableTypeHash crates types name = word := by
  rw [tableTypeHash, h]

/-! ## Leaves -/

section Leaves

variable {crates : Crates} {preview : PreviewCrates} {typeHash : String → Word}
  {typeName : String} {j : Json} {tree : TypedValue} {word : Word}

lemma address_shows (hagree : CratesAgree crates preview)
    (hshown : parseLeaf preview .address typeName j = .ok tree)
    (hhashed : encodeAddress crates j = .ok word) :
    ∃ v, Shows crates tree v ∧ word = encodeVal crates typeHash v := by
  cases j with
  | str s =>
    simp only [encodeAddress, bind_eq_ok_iff, guard_eq_ok_iff, not_not,
      decodeHexText_eq_ok_iff, Except.ok.injEq] at hhashed
    obtain ⟨raw, htext, hlength, rfl⟩ := hhashed
    have hdecoded : decodeHexPairs (dropHexMark s.toList) = some raw := htext
    simp only [parseLeaf, Json.asStr, okOr_some, ok_bind, bind_eq_ok_iff,
      mapError_eq_ok_iff, ethereumAddressChecksum, guard_eq_ok_iff, hdecoded, hlength,
      dif_pos, Except.ok.injEq] at hshown
    obtain ⟨_, ⟨-, rfl⟩, rfl⟩ := hshown
    exact ⟨.address ⟨raw, hlength⟩, .address (hagree.checksum _),
      leftPad_eq_addressWord ⟨raw, hlength⟩⟩
  | _ => cases hhashed

lemma string_shows (hshown : parseLeaf preview .string typeName j = .ok tree)
    (hhashed : encodeString crates j = .ok word) :
    ∃ v, Shows crates tree v ∧ word = encodeVal crates typeHash v := by
  cases j with
  | str s =>
    obtain rfl := Except.ok.inj hshown
    exact ⟨.string s, .string, (Except.ok.inj hhashed).symm⟩
  | _ => cases hhashed

lemma bool_shows (hshown : parseLeaf preview .bool typeName j = .ok tree)
    (hhashed : encodeBool crates j = .ok word) :
    ∃ v, Shows crates tree v ∧ word = encodeVal crates typeHash v := by
  cases j with
  | bool b =>
    obtain rfl := Except.ok.inj hshown
    exact ⟨.bool b, .bool, (Except.ok.inj hhashed).symm.trans (boolWord_eq b)⟩
  | _ => cases hshown

/-- The bytes the preview reads are those the signer reads. -/
lemma parseHexBytes_eq_ok_iff {kind : String} {bytes : List UInt8} :
    parseHexBytes preview kind j = .ok bytes ↔ ∃ s, j = .str s ∧ hexText s = some bytes := by
  cases j with
  | str s =>
    simp only [parseHexBytes, Json.asStr, okOr_some, ok_bind, okOr_eq_ok_iff]
    constructor
    · intro h
      exact ⟨s, rfl, h⟩
    · rintro ⟨s', hs, h⟩
      obtain rfl := Json.str.inj hs
      exact h
  | _ => simp [parseHexBytes, Json.asStr, okOr, bind, Except.bind]

lemma bytes_shows (hshown : parseLeaf preview .bytes typeName j = .ok tree)
    (hhashed : encodeBytes crates j = .ok word) :
    ∃ v, Shows crates tree v ∧ word = encodeVal crates typeHash v := by
  simp only [parseLeaf, bind_eq_ok_iff, parseHexBytes_eq_ok_iff, Except.ok.injEq] at hshown
  obtain ⟨bytes, ⟨s, rfl, htext⟩, rfl⟩ := hshown
  simp only [encodeBytes, bind_eq_ok_iff, decodeHexText_eq_ok_iff, Except.ok.injEq] at hhashed
  obtain ⟨bytes', htext', rfl⟩ := hhashed
  obtain rfl : bytes = bytes' := Option.some.inj (htext.symm.trans htext')
  exact ⟨.bytes bytes, .bytes, rfl⟩

/-- A size that is read from the name of a type of fixed bytes is the size of a width. -/
theorem exists_width_of_parseFixedBytesSize {size : ℕ}
    (h : parseFixedBytesSize typeName = .ok size) : ∃ w : Fin 32, byteSize w = size := by
  simp only [parseFixedBytesSize] at h
  split_ifs at h
  simp only [bind_eq_ok_iff, guard_eq_ok_iff, Except.ok.injEq] at h
  obtain ⟨n, -, hrange, rfl⟩ := h
  exact ⟨⟨n - 1, by omega⟩, by simp only [byteSize]; omega⟩

lemma fixedBytes_shows (hshown : parseLeaf preview .fixedBytes typeName j = .ok tree)
    (hhashed : encodeFixedBytes crates typeName j = .ok word) :
    ∃ v, Shows crates tree v ∧ word = encodeVal crates typeHash v := by
  simp only [parseLeaf, bind_eq_ok_iff, parseHexBytes_eq_ok_iff, Except.ok.injEq] at hshown
  obtain ⟨bytes, ⟨s, rfl, htext⟩, rfl⟩ := hshown
  simp only [encodeFixedBytes, bind_eq_ok_iff, guard_eq_ok_iff, fixedBytesValue_eq_ok_iff,
    Nat.not_lt, Except.ok.injEq] at hhashed
  obtain ⟨size, hsize, bytes', ⟨s', hs, htext'⟩, hle, rfl⟩ := hhashed
  obtain rfl := Json.str.inj hs
  obtain rfl : bytes = bytes' := Option.some.inj (htext.symm.trans htext')
  obtain ⟨w, rfl⟩ := exists_width_of_parseFixedBytesSize hsize
  exact ⟨_, .fixedBytes hle, rightPad_eq_fixedBytesWord (padTo w bytes hle)⟩

lemma uint_shows (hagree : CratesAgree crates preview)
    (hshown : parseLeaf preview .uint typeName j = .ok tree)
    (hhashed : encodeUint crates typeName j = .ok word) :
    ∃ v, Shows crates tree v ∧ word = encodeVal crates typeHash v := by
  simp only [encodeUint, bind_eq_ok_iff, guard_eq_ok_iff, parseUintValue_eq_ok_iff,
    Except.ok.injEq] at hhashed
  obtain ⟨bits, -, n, ⟨s, rfl, htext⟩ | ⟨x, rfl, hnumber⟩, -, rfl⟩ := hhashed
  · obtain rfl := Except.ok.inj hshown
    exact ⟨.uint n, .uint htext, rfl⟩
  · obtain rfl := Except.ok.inj hshown
    have hrange := JsonNumber.int_range hnumber
    refine ⟨.uint n, .uint ?_, rfl⟩
    rw [JsonNumber.text_of_int hnumber]
    exact hagree.uint_decimal n (by omega)

lemma int_shows (hagree : CratesAgree crates preview)
    (hshown : parseLeaf preview .int typeName j = .ok tree)
    (hhashed : encodeInt crates typeName j = .ok word) :
    ∃ v, Shows crates tree v ∧ word = encodeVal crates typeHash v := by
  simp only [encodeInt, bind_eq_ok_iff, adjustSignedValue, guard_eq_ok_iff,
    parseIntValue_eq_ok_iff, Except.ok.injEq] at hhashed
  obtain ⟨bits, -, z, ⟨s, rfl, htext⟩ | ⟨x, rfl, hnumber⟩, _, ⟨-, -, rfl⟩, rfl⟩ := hhashed
  · obtain rfl := Except.ok.inj hshown
    exact ⟨.int z, .int htext, rfl⟩
  · obtain rfl := Except.ok.inj hshown
    have hrange := JsonNumber.int_range hnumber
    refine ⟨.int z, .int ?_, rfl⟩
    rw [JsonNumber.text_of_int hnumber]
    exact hagree.int_decimal z (by omega) (by omega)

/-- **Leaves**: the preview and the signer select the same reading of a built-in type's name. -/
theorem leaf_shows (hagree : CratesAgree crates preview) {kind : LeafKind} {errorName : String}
    (hkind : leafKind typeName = some kind)
    (hshown : parseLeaf preview kind typeName j = .ok tree)
    (hhashed : encodeAtomic crates errorName typeName j = .ok word) :
    ∃ v, Shows crates tree v ∧ word = encodeVal crates typeHash v := by
  simp only [leafKind] at hkind
  simp only [encodeAtomic] at hhashed
  split_ifs at hkind <;> obtain rfl := Option.some.inj hkind
  · rename_i h
    subst h
    exact address_shows hagree hshown hhashed
  · rename_i _ h
    subst h
    exact string_shows hshown hhashed
  · rename_i _ _ h
    subst h
    exact bool_shows hshown hhashed
  · rename_i _ _ _ h
    subst h
    exact bytes_shows hshown hhashed
  · rename_i h₁ h₂ h₃ h₄ h₅
    simp only [h₁, h₂, h₃, h₄, h₅, if_false, if_true] at hhashed
    exact uint_shows hagree hshown hhashed
  · rename_i h₁ h₂ h₃ h₄ h₅ h₆
    simp only [h₁, h₂, h₃, h₄, h₅, h₆, if_false, if_true] at hhashed
    exact int_shows hagree hshown hhashed
  · rename_i h₁ h₂ h₃ h₄ h₅ h₆ h₇
    simp only [h₁, h₂, h₃, h₄, h₅, h₆, h₇, if_false, if_true] at hhashed
    exact fixedBytes_shows hshown hhashed

/-- Leaves are neither arrays nor objects. -/
lemma parseLeaf_ne_ok_arr {kind : LeafKind} {items : List Json} :
    parseLeaf preview kind typeName (.arr items) ≠ .ok tree := by
  cases kind <;>
    simp [parseLeaf, parseHexBytes, parseNumericValueAsString, Json.asStr, Json.asBool, okOr,
      bind, Except.bind]

lemma parseLeaf_ne_ok_obj {kind : LeafKind} {entries : List (String × Json)} :
    parseLeaf preview kind typeName (.obj entries) ≠ .ok tree := by
  cases kind <;>
    simp [parseLeaf, parseHexBytes, parseNumericValueAsString, Json.asStr, Json.asBool, okOr,
      bind, Except.bind]

/-- A built-in type does not give a struct. -/
lemma parseLeaf_ne_ok_struct {kind : LeafKind} {fields : List (String × TypedValue)} :
    parseLeaf preview kind typeName j ≠ .ok (.struct fields) := by
  cases kind <;>
    · simp only [parseLeaf, ne_eq, bind_eq_ok_iff, Except.ok.injEq]
      rintro ⟨_, _, h⟩
      simp at h

end Leaves

/-! ## Structs and arrays -/

/-- A type that ends in `[]` is an array of any length for the signer too. -/
lemma parseArrayType_of_stripBrackets {typeName baseType : String}
    (h : stripBrackets typeName = some baseType) {parsed : Option (String × Option ℕ)}
    (hparse : parseArrayType typeName = .ok parsed) : parsed = some (baseType, none) := by
  have htext : typeName.toList = baseType.toList ++ '[' :: [] ++ [']'] := by
    rw [stripBrackets] at h
    split at h
    · rename_i rest hrev
      obtain rfl := Option.some.inj h
      rw [String.toList_ofList, ← List.reverse_reverse typeName.toList, hrev]
      simp
    · cases h
  simp only [parseArrayType] at hparse
  rw [htext, splitBracket_append (by simp), if_neg (by simp [List.getLast?_append])] at hparse
  simp only [String.ofList_toList] at hparse
  split_ifs at hparse
  exact (Except.ok.inj hparse).symm

section Values

variable {crates : Crates} {preview : PreviewCrates} {types : Types}

lemma parseItems_eq_tryMap (baseType : String) (items : List Json) :
    parseItems preview types baseType items =
      tryMap (parseValue preview types baseType) items := by
  induction items with
  | nil => rfl
  | cons item rest ih => rw [parseItems, tryMap, ih]

lemma parseEntry_eq_ok_iff {structType name typeName : String}
    {entries : List (String × Json)} {field : String × TypedValue} :
    parseEntry preview types structType name typeName entries = .ok field ↔
      ∃ value typed, Json.lookup entries name = some value ∧
        parseValue preview types typeName value = .ok typed ∧ field = (name, typed) := by
  induction entries with
  | nil => simp [parseEntry, Json.lookup]
  | cons entry rest ih =>
    obtain ⟨key, value⟩ := entry
    rw [parseEntry, Json.lookup, List.lookup_cons]
    by_cases h : name == key
    · simp only [h, if_true, bind_eq_ok_iff, Except.ok.injEq]
      constructor
      · rintro ⟨typed, htyped, rfl⟩
        exact ⟨value, typed, rfl, htyped, rfl⟩
      · rintro ⟨value', typed, hvalue, htyped, rfl⟩
        obtain rfl := Option.some.inj hvalue
        exact ⟨typed, htyped, rfl⟩
    · simpa [h, Json.lookup] using ih

/-- The preview and the signer agree on a piece of JSON, whatever its type. -/
def Agrees (crates : Crates) (preview : PreviewCrates) (types : Types) (j : Json) : Prop :=
  ∀ typeName tree word, parseValue preview types typeName j = .ok tree →
    encodeValue crates types typeName j = .ok word →
    ∃ v, Shows crates tree v ∧ word = encodeVal crates (tableTypeHash crates types) v

/-- The items of an array, one after the other. -/
lemma items_show {baseType : String} {items : List Json}
    (h : ∀ x ∈ items, Agrees crates preview types x) :
    ∀ (trees : List TypedValue) (words : List Word),
      List.Forall₂ (fun x tree => parseValue preview types baseType x = .ok tree) items trees →
      List.Forall₂ (fun x word => encodeValue crates types baseType x = .ok word) items words →
      ∃ vs, ShowsItems crates trees vs ∧
        words = encodeVals crates (tableTypeHash crates types) vs := by
  induction items with
  | nil =>
    intro trees words htrees hwords
    cases htrees
    cases hwords
    exact ⟨[], .nil, rfl⟩
  | cons x items ih =>
    intro trees words htrees hwords
    cases htrees with
    | cons htree htrees =>
      cases hwords with
      | cons hword hwords =>
        obtain ⟨v, hv, rfl⟩ := h x List.mem_cons_self _ _ _ htree hword
        obtain ⟨vs, hvs, rfl⟩ := ih (fun y hy => h y (List.mem_cons_of_mem x hy)) _ _ htrees hwords
        exact ⟨v :: vs, .cons hv hvs, rfl⟩

/-- The fields of a struct, one after the other. -/
lemma fields_show {structType : String} {entries : List (String × Json)}
    (h : ∀ e ∈ entries, Agrees crates preview types e.2) {fields : List TypeField} :
    ∀ (trees : List (String × TypedValue)) (words : List Word),
      List.Forall₂ (fun f tree => parseEntry preview types structType f.name f.type entries =
        .ok tree) fields trees →
      FieldWords crates types entries fields words →
      ∃ vs, ShowsFields crates trees vs ∧
        words = encodeFields crates (tableTypeHash crates types) vs := by
  induction fields with
  | nil =>
    intro trees words htrees hwords
    cases htrees
    cases hwords
    exact ⟨[], .nil, rfl⟩
  | cons f fields ih =>
    intro trees words htrees hwords
    cases htrees with
    | cons htree htrees =>
      cases hwords with
      | cons hword hwords =>
        obtain ⟨value, typed, hvalue, htyped, rfl⟩ := parseEntry_eq_ok_iff.mp htree
        obtain ⟨value', hvalue', hword⟩ := hword
        obtain rfl : value = value' := Option.some.inj (hvalue.symm.trans hvalue')
        obtain ⟨before, after, hentries, -⟩ := List.lookup_eq_some_iff.mp hvalue
        obtain ⟨v, hv, rfl⟩ := h (f.name, value) (by simp [hentries]) _ _ _ htyped hword
        obtain ⟨vs, hvs, rfl⟩ := ih _ _ htrees hwords
        exact ⟨(f.name, v) :: vs, .cons hv hvs, rfl⟩

/-- A struct of a declared type: both sides read the same fields of the same object. -/
theorem struct_shows {name : String} {entries : List (String × Json)}
    (h : ∀ e ∈ entries, Agrees crates preview types e.2) {fields : List TypeField}
    (hfields : types.lookup name = some fields) {trees : List (String × TypedValue)}
    (htrees : List.Forall₂ (fun f tree => parseEntry preview types name f.name f.type entries =
      .ok tree) fields trees) {word : Word}
    (hhashed : hashStruct crates types name (.obj entries) = .ok word) :
    ∃ vs, ShowsFields crates trees vs ∧
      word = encodeVal crates (tableTypeHash crates types) (.struct name vs) := by
  obtain ⟨fields', entries', typeHash, words, hfields', hentries, htype, hwords, rfl⟩ :=
    hashStruct_eq_ok_iff.mp hhashed
  obtain rfl : fields = fields' := Option.some.inj (hfields.symm.trans hfields')
  obtain rfl := Json.obj.inj hentries
  obtain ⟨vs, hvs, rfl⟩ := fields_show h _ _ htrees hwords
  refine ⟨vs, hvs, ?_⟩
  rw [encodeVal, tableTypeHash_eq htype]

/-- One step: both sides agree on a value if they agree on the values inside it. -/
theorem agrees_of_children (hagree : CratesAgree crates preview) {j : Json}
    (harr : ∀ items, j = .arr items → ∀ x ∈ items, Agrees crates preview types x)
    (hobj : ∀ entries, j = .obj entries → ∀ e ∈ entries, Agrees crates preview types e.2) :
    Agrees crates preview types j := by
  intro typeName tree word hshown hhashed
  obtain ⟨parsed, hparse⟩ := exists_parseArrayType_of_encodeValue hhashed
  cases hstrip : stripBrackets typeName with
  | some baseType =>
    -- both sides see an array of any length
    obtain rfl := parseArrayType_of_stripBrackets hstrip hparse
    obtain ⟨items, words, rfl, -, hwords, rfl⟩ := (encodeValue_array_eq_ok_iff hparse).mp hhashed
    rw [parseValue] at hshown
    simp only [hstrip, parseItems_eq_tryMap, bind_eq_ok_iff, tryMap_eq_ok_iff,
      Except.ok.injEq] at hshown
    obtain ⟨trees, htrees, rfl⟩ := hshown
    obtain ⟨vs, hvs, rfl⟩ := items_show (harr items rfl) trees words htrees hwords
    exact ⟨.array vs, .array hvs, rfl⟩
  | none =>
    cases parsed with
    | some array =>
      -- an array with a length: the signer asks for an array, which the preview refuses
      obtain ⟨items, words, rfl, -⟩ := (encodeValue_array_eq_ok_iff hparse).mp hhashed
      simp only [parseValue, hstrip] at hshown
      split at hshown
      · exact absurd hshown parseLeaf_ne_ok_arr
      · split at hshown <;> cases hshown
    | none =>
      have hbase : baseTypeName typeName = typeName :=
        baseTypeName_of_not_mem (not_mem_of_parseArrayType hparse)
      cases hfields : types.lookup typeName with
      | some fields =>
        -- a declared type: the signer asks for an object, so the preview sees a struct
        rw [encodeValue_struct_eq hparse (by rw [hbase]; exact hfields), hbase] at hhashed
        obtain ⟨_, entries, _, _, _, rfl, -⟩ := hashStruct_eq_ok_iff.mp hhashed
        simp only [parseValue, hstrip, hfields] at hshown
        split at hshown
        · exact absurd hshown parseLeaf_ne_ok_obj
        · simp only [bind_eq_ok_iff, tryMap_eq_ok_iff, Except.ok.injEq] at hshown
          obtain ⟨trees, htrees, rfl⟩ := hshown
          obtain ⟨vs, hvs, rfl⟩ := struct_shows (hobj entries rfl) hfields htrees hhashed
          exact ⟨.struct typeName vs, .struct hvs, rfl⟩
      | none =>
        rw [encodeValue_atomic_eq_ok_iff hparse (by rw [hbase]; exact hfields), hbase] at hhashed
        simp only [parseValue, hstrip, hfields] at hshown
        split at hshown
        · rename_i kind hkind
          exact leaf_shows hagree hkind hshown hhashed.2
        · cases hshown

/-- **Every value** that both sides accept is shown as it is hashed.

**Proof sketch.** Induction on the document. Where the two sides read a type's name differently (a
struct under a built-in name, an array with a length) they ask for different kinds of JSON, so one
of them fails. -/
theorem parseValue_shows (hagree : CratesAgree crates preview) (j : Json) :
    Agrees crates preview types j := by
  induction j using Json.induction with
  | arr items ih =>
    refine agrees_of_children hagree ?_ (by simp)
    intro items' hitems
    obtain rfl := Json.arr.inj hitems
    exact ih
  | obj entries ih =>
    refine agrees_of_children hagree (by simp) ?_
    intro entries' hentries
    obtain rfl := Json.obj.inj hentries
    exact ih
  | null | bool b | num n | str s => exact agrees_of_children hagree (by simp) (by simp)

end Values

/-! ## The number of the chain -/

/-- The names the signer and the preview take for integer types. -/
def IsIntegerName (typeName : String) : Prop :=
  startsWith "uint" typeName = true ∨ startsWith "int" typeName = true

lemma parseUsize_lt {text : List Char} {n : ℕ} (h : parseUsize text = some n) : n < 2 ^ 64 := by
  simp only [parseUsize] at h
  split_ifs at h with _ hlt
  obtain rfl := Option.some.inj h
  exact hlt

lemma parseU64String_lt {s : String} {n : ℕ} (h : parseU64String s = some n) : n < 2 ^ 64 := by
  rw [parseU64String] at h
  split at h
  · simp only [parseHexU64] at h
    split_ifs at h
    obtain ⟨m, -, h⟩ := Option.bind_eq_some_iff.mp h
    split_ifs at h with hlt
    obtain rfl := Option.some.inj h
    exact hlt
  · exact parseUsize_lt h

/-- The number of a chain is read from a text or from an integer. -/
lemma optionU64_eq_some_iff {j : Json} {c : ℕ} (h : optionU64 (some j) = some (some c)) :
    (∃ s, j = .str s ∧ parseU64String s = some c) ∨ ∃ x, j = .num x ∧ x.int = some (c : ℤ) := by
  cases j with
  | str s =>
    obtain ⟨n, hn, heq⟩ := Option.map_eq_some_iff.mp h
    obtain rfl := Option.some.inj heq
    exact .inl ⟨s, rfl, hn⟩
  | num x =>
    refine .inr ⟨x, rfl, ?_⟩
    simp only [optionU64] at h
    cases hu : x.asU64 with
    | some u =>
      simp only [hu, Option.some.injEq] at h
      subst h
      exact JsonNumber.int_of_asU64 hu
    | none =>
      rw [JsonNumber.int_of_asU64_eq_none hu]
      cases hi : x.asI64 with
      | some i =>
        simp only [hu, hi] at h
        split_ifs at h with hpos
        obtain rfl : i.toNat = c := Option.some.inj (Option.some.inj h)
        rw [Int.toNat_of_nonneg hpos]
      | none => simp [hu, hi] at h
  | _ => cases h

/-- The names of integer types are no other built-in names. -/
lemma ne_of_isIntegerName {typeName other : String} (h : IsIntegerName typeName)
    (huint : startsWith "uint" other = false) (hint : startsWith "int" other = false) :
    typeName ≠ other := by
  rintro rfl
  rcases h with h | h
  · rw [huint] at h
    cases h
  · rw [hint] at h
    cases h

section ChainId

variable {crates : Crates} {preview : PreviewCrates} {types : Types}

/-- A number of 64 bits is its own two's complement. -/
lemma intoRaw_natCast {c : ℕ} (h : c < 2 ^ 64) : intoRaw c = c := by
  rw [intoRaw]
  omega

/-- A number of a chain that is declared as an integer is hashed as it is. -/
lemma encodeValue_chainId (hagree : CratesAgree crates preview) {j : Json} {c : ℕ}
    (hchain : optionU64 (some j) = some (some c)) {typeName : String}
    (hname : IsIntegerName typeName) {word : Word}
    (hhashed : encodeValue crates types typeName j = .ok word) : word = toBeBytes c := by
  have hj := optionU64_eq_some_iff hchain
  obtain ⟨parsed, hparse⟩ := exists_parseArrayType_of_encodeValue hhashed
  cases parsed with
  | some array =>
    obtain ⟨items, words, rfl, -⟩ := (encodeValue_array_eq_ok_iff hparse).mp hhashed
    rcases hj with ⟨_, h, _⟩ | ⟨_, h, _⟩ <;> cases h
  | none =>
    have hbase : baseTypeName typeName = typeName :=
      baseTypeName_of_not_mem (not_mem_of_parseArrayType hparse)
    cases hfields : types.lookup typeName with
    | some fields =>
      rw [encodeValue_struct_eq hparse (by rw [hbase]; exact hfields)] at hhashed
      obtain ⟨_, entries, _, _, _, rfl, -⟩ := hashStruct_eq_ok_iff.mp hhashed
      rcases hj with ⟨_, h, _⟩ | ⟨_, h, _⟩ <;> cases h
    | none =>
      rw [encodeValue_atomic_eq_ok_iff hparse (by rw [hbase]; exact hfields), hbase] at hhashed
      have hatomic := hhashed.2
      rw [encodeAtomic, if_neg (ne_of_isIntegerName hname (by decide) (by decide)),
        if_neg (ne_of_isIntegerName hname (by decide) (by decide)),
        if_neg (ne_of_isIntegerName hname (by decide) (by decide)),
        if_neg (ne_of_isIntegerName hname (by decide) (by decide))] at hatomic
      by_cases huint : startsWith "uint" typeName = true
      · rw [if_pos huint] at hatomic
        simp only [encodeUint, bind_eq_ok_iff, guard_eq_ok_iff, parseUintValue_eq_ok_iff,
          Except.ok.injEq] at hatomic
        obtain ⟨bits, -, n, hn, -, rfl⟩ := hatomic
        obtain rfl : n = c := by
          rcases hn with ⟨s, rfl, htext⟩ | ⟨x, rfl, hnumber⟩
          · rcases hj with ⟨s', hs, hc⟩ | ⟨_, hs, _⟩
            · obtain rfl := Json.str.inj hs
              exact hagree.uint_u64 s n c htext hc
            · cases hs
          · rcases hj with ⟨_, hx, _⟩ | ⟨x', hx, hc⟩
            · cases hx
            · obtain rfl := Json.num.inj hx
              exact_mod_cast Option.some.inj (hnumber.symm.trans hc)
        rfl
      · rw [if_neg huint, if_pos (hname.resolve_left huint)] at hatomic
        simp only [encodeInt, bind_eq_ok_iff, adjustSignedValue, guard_eq_ok_iff,
          parseIntValue_eq_ok_iff, Except.ok.injEq] at hatomic
        obtain ⟨bits, -, z, hz, _, ⟨-, -, rfl⟩, rfl⟩ := hatomic
        have hvalue : z = c ∧ c < 2 ^ 64 := by
          rcases hz with ⟨s, rfl, htext⟩ | ⟨x, rfl, hnumber⟩
          · rcases hj with ⟨s', hs, hc⟩ | ⟨_, hs, _⟩
            · obtain rfl := Json.str.inj hs
              exact ⟨hagree.int_u64 s z c htext hc, parseU64String_lt hc⟩
            · cases hs
          · rcases hj with ⟨_, hx, _⟩ | ⟨x', hx, hc⟩
            · cases hx
            · obtain rfl := Json.num.inj hx
              have hrange := JsonNumber.int_range hc
              exact ⟨Option.some.inj (hnumber.symm.trans hc), by omega⟩
        obtain ⟨rfl, hlt⟩ := hvalue
        rw [intoRaw_natCast hlt]

end ChainId

/-! ## Documents -/

/-- A struct type is read under the name it has in the document. -/
lemma lookup_of_forall₂ {typeEntries : List (String × Json)} {types : Types}
    (h : List.Forall₂ (fun entry s => structFromValue entry = some s) typeEntries types)
    {name : String} {j : Json} (hj : Json.lookup typeEntries name = some j) :
    ∃ fields, types.lookup name = some fields ∧
      (j.asArray.bind fun items => items.mapM TypeField.fromValue) = some fields := by
  induction h with
  | nil => cases hj
  | @cons entry s typeEntries types hfirst _ ih =>
    obtain ⟨key, value⟩ := entry
    simp only [structFromValue, bind, Option.bind_eq_some_iff] at hfirst
    obtain ⟨items, hitems, fields, hfields, heq⟩ := hfirst
    obtain rfl := Option.some.inj heq
    rw [Json.lookup, List.lookup_cons] at hj
    rw [List.lookup_cons]
    cases hkey : name == key with
    | true =>
      rw [hkey] at hj
      obtain rfl := Option.some.inj hj
      exact ⟨fields, rfl, Option.bind_eq_some_iff.mpr ⟨items, hitems, hfields⟩⟩
    | false =>
      rw [hkey] at hj
      exact ih hj

/-- A field with a name in the document is a field with that name. -/
lemma exists_field_of_name {items : List Json} {fields : List TypeField}
    (h : ((Json.arr items).asArray.bind fun items => items.mapM TypeField.fromValue) = some fields)
    {item : Json} (hitem : item ∈ items) {name : String}
    (hname : (item.get "name").bind Json.asStr = some name) :
    ∃ f ∈ fields, f.name = name := by
  simp only [Json.asArray, Option.bind_some] at h
  induction items generalizing fields with
  | nil => cases hitem
  | cons x items ih =>
    simp only [List.mapM_cons, bind, Option.bind_eq_some_iff, pure, Option.some.injEq] at h
    obtain ⟨f, hf, rest, hrest, rfl⟩ := h
    rcases List.mem_cons.mp hitem with rfl | hitem
    · refine ⟨f, List.mem_cons_self, ?_⟩
      cases item with
      | obj entries =>
        simp only [Json.get] at hname
        simp only [TypeField.fromValue, bind, hname, Option.bind_some, Option.bind_eq_some_iff,
          Option.some.injEq] at hf
        obtain ⟨_, _, rfl⟩ := hf
        rfl
      | _ => cases hname
    · obtain ⟨g, hg, hgname⟩ := ih hrest hitem
      exact ⟨g, List.mem_cons_of_mem f hg, hgname⟩

section Documents

variable {crates : Crates} {preview : PreviewCrates} {value : Json}

/-- What the preview has read of a document. -/
structure Previewed (preview : PreviewCrates) (value : Json) (shown : EIP712Message)
    (domainValue messageValue : Json) (typeEntries : List (String × Json)) (types : Types) :
    Prop where
  domain : value.get "domain" = some domainValue
  shownDomain : previewDomain preview domainValue = .ok shown.domain
  typesValue : value.get "types" = some (.obj typeEntries)
  table : List.Forall₂ (fun entry s => structFromValue entry = some s) typeEntries types
  primaryType : value.get "primaryType" = some (.str shown.primaryType)
  message : value.get "message" = some messageValue
  shownMessage : parseValue preview types shown.primaryType messageValue =
    .ok (.struct shown.message)

lemma exists_previewed {shown : EIP712Message} (h : parseEip712Json preview value = .ok shown) :
    ∃ domainValue messageValue typeEntries types,
      Previewed preview value shown domainValue messageValue typeEntries types := by
  simp only [parseEip712Json, bind_eq_ok_iff, okOr_eq_ok_iff, Option.bind_eq_some_iff,
    previewTypes, tryMap_eq_ok_iff, Except.ok.injEq] at h
  obtain ⟨domainValue, hdomain, domain, hshownDomain, typeEntries, ⟨typesValue, htypes, hobj⟩,
    types, htable, primaryType, ⟨primaryValue, hprimary, hstr⟩, messageValue, hmessage, tree,
    htree, fields, hfields, rfl⟩ := h
  obtain rfl : typesValue = .obj typeEntries := by
    cases typesValue with
    | obj entries => exact congrArg Json.obj (Option.some.inj hobj)
    | _ => cases hobj
  obtain rfl : primaryValue = .str primaryType := by
    cases primaryValue with
    | str s => exact congrArg Json.str (Option.some.inj hstr)
    | _ => cases hstr
  obtain rfl : tree = .struct fields := by
    cases tree with
    | struct fs => exact congrArg TypedValue.struct (Except.ok.inj hfields)
    | _ => cases hfields
  exact ⟨domainValue, messageValue, typeEntries, types,
    ⟨hdomain, hshownDomain, htypes, htable, hprimary, hmessage, htree⟩⟩

variable {shown : EIP712Message} {domainValue messageValue : Json}
  {typeEntries : List (String × Json)} {types : Types}

/-- The signer reads the same document. -/
lemma Previewed.deserialize
    (h : Previewed preview value shown domainValue messageValue typeEntries types) :
    TypedData.deserialize value = some ⟨types, shown.primaryType, domainValue, messageValue⟩ := by
  have htable : typeEntries.mapM structFromValue = some (types.map id) :=
    mapM_eq_some_of_forall₂ h.table
  have hdomain := h.domain
  have htypes := h.typesValue
  have hprimary := h.primaryType
  have hmessage := h.message
  cases value with
  | obj entries =>
    simp only [Json.get] at hdomain htypes hprimary hmessage
    simp [TypedData.deserialize, TypedData.fromMembers, hdomain, htypes, hprimary, hmessage,
      typesFromValue, Json.asObject, Json.asStr, htable]
  | _ => cases hdomain

/-- The preview of a struct reads the fields of its type. -/
lemma Previewed.struct
    (h : Previewed preview value shown domainValue messageValue typeEntries types) :
    ∃ fields entries, types.lookup shown.primaryType = some fields ∧ messageValue = .obj entries ∧
      List.Forall₂ (fun f tree => parseEntry preview types shown.primaryType f.name f.type entries =
        .ok tree) fields shown.message := by
  have htree := h.shownMessage
  rw [parseValue] at htree
  split at htree
  · -- a type that ends in brackets gives an array
    split at htree
    · simp only [bind_eq_ok_iff, Except.ok.injEq] at htree
      obtain ⟨_, _, htree⟩ := htree
      cases htree
    · cases htree
  · split at htree
    · -- a built-in name gives a leaf
      exact absurd htree parseLeaf_ne_ok_struct
    · split at htree
      · cases htree
      · rename_i fields hfields
        split at htree
        · rename_i entries
          simp only [bind_eq_ok_iff, tryMap_eq_ok_iff, Except.ok.injEq,
            TypedValue.struct.injEq] at htree
          obtain ⟨trees, htrees, rfl⟩ := htree
          exact ⟨fields, entries, hfields, rfl, htrees⟩
        · cases htree

/-- A `chainId` that the raw schema declares is a field of the domain's type. -/
theorem Previewed.exists_chainId_field
    (h : Previewed preview value shown domainValue messageValue typeEntries types)
    (hschema : schemaHasChainId value = true) :
    ∃ fields, types.lookup "EIP712Domain" = some fields ∧ ∃ f ∈ fields, f.name = "chainId" := by
  rw [schemaHasChainId, h.typesValue, Option.bind_some, Json.get] at hschema
  cases hlookup : Json.lookup typeEntries "EIP712Domain" with
  | none => simp [hlookup] at hschema
  | some j =>
    obtain ⟨fields, hfields, hread⟩ := lookup_of_forall₂ h.table hlookup
    cases j with
    | arr items =>
      simp only [hlookup, Option.bind_some, Json.asArray, List.any_eq_true] at hschema
      obtain ⟨item, hitem, hname⟩ := hschema
      exact ⟨fields, hfields, exists_field_of_name hread hitem (by simpa using hname)⟩
    | _ => simp [hlookup, Json.asArray] at hschema

/-- The binding check on a domain that has a `chainId`: it is declared and not `null`. -/
theorem schemaHasChainId_of_binding {chainValue : Json}
    (h : validateEip712DomainChainIdBinding value = .ok ())
    (hchain : (value.get "domain").bind (Json.get "chainId") = some chainValue) :
    schemaHasChainId value = true ∧ chainValue ≠ .null := by
  rw [validateEip712DomainChainIdBinding, hchain] at h
  cases hschema : schemaHasChainId value with
  | false =>
    rw [hschema] at h
    cases h
  | true =>
    refine ⟨rfl, ?_⟩
    rintro rfl
    rw [hschema] at h
    cases h

/-- The number of the chain that is shown is the member `chainId` of the domain. -/
theorem optionU64_of_previewDomain {entries : List (String × Json)} {domain : EIP712Domain}
    (h : previewDomain preview (.obj entries) = .ok domain) :
    optionU64 (Json.lookup entries "chainId") = some domain.chainId := by
  rw [previewDomain, bind_eq_ok_iff] at h
  obtain ⟨d, hd, hresult⟩ := h
  simp only [okOr_eq_ok_iff, EIP712Domain.fromValue, EIP712Domain.fromMembers, bind,
    Option.bind_eq_some_iff, Option.some.injEq] at hd
  obtain ⟨name, _, version, _, chainId, hchain, contract, _, salts, _, rfl⟩ := hd
  rw [hchain]
  split at hresult
  · obtain rfl := Except.ok.inj hresult
    rfl
  · obtain ⟨_, _, hresult⟩ := bind_eq_ok_iff.mp hresult
    obtain rfl := Except.ok.inj hresult
    rfl

/-- A `chainId` that is not `null` gives a number. -/
lemma optionU64_ne_none {j : Json} (hj : j ≠ .null) : optionU64 (some j) ≠ some none := by
  cases j with
  | null => exact absurd rfl hj
  | str s => simp [optionU64]
  | num x =>
    simp only [optionU64]
    split <;> simp
  | _ => simp [optionU64]

/-- The words of the fields of a struct, for one member. -/
lemma FieldWords.imp_member {entries : List (String × Json)} {fields : List TypeField}
    {words : List Word} (h : FieldWords crates types entries fields words) {name : String}
    {j : Json} (hj : Json.lookup entries name = some j) :
    List.Forall₂ (fun field word => field.name = name →
      encodeValue crates types field.type j = .ok word) fields words := by
  refine List.Forall₂.imp ?_ h
  rintro field word ⟨j', hj', hword⟩ rfl
  obtain rfl : j = j' := Option.some.inj (hj.symm.trans hj')
  exact hword

/-- The number of the chain in the domain separator: when the check of the chain passes and the
domain has a `chainId`, its type has a field of that name, and every such field that is declared as
an integer is hashed as the expected number. -/
def ChainIdHashed (crates : Crates) (types : Types) (domainWord : Word) (expected : ℕ) : Prop :=
  ∃ fields typeHash words, types.lookup "EIP712Domain" = some fields ∧
    hashType crates types "EIP712Domain" = .ok typeHash ∧
    domainWord = structHash crates typeHash words ∧
    (∃ f ∈ fields, f.name = "chainId") ∧
    List.Forall₂ (fun f word => f.name = "chainId" → IsIntegerName f.type →
      word = toBeBytes expected) fields words

lemma Previewed.chainIdHashed (hagree : CratesAgree crates preview)
    (h : Previewed preview value shown domainValue messageValue typeEntries types)
    (hbinding : validateEip712DomainChainIdBinding value = .ok ()) {domainWord : Word}
    (hdomain : domainHash crates ⟨types, shown.primaryType, domainValue, messageValue⟩ =
      .ok domainWord) {expected : ℕ}
    (hexpected : ∀ c, shown.domain.chainId = some c → c = expected)
    (hchain : ((value.get "domain").bind (Json.get "chainId")).isSome) :
    ChainIdHashed crates types domainWord expected := by
  obtain ⟨chainValue, hchain⟩ := Option.isSome_iff_exists.mp hchain
  obtain ⟨hschema, hnull⟩ := schemaHasChainId_of_binding hbinding hchain
  obtain ⟨fields, hfields, hfield⟩ := h.exists_chainId_field hschema
  rw [h.domain, Option.bind_some] at hchain
  rw [domainHash, if_pos (by simp [hfields])] at hdomain
  obtain ⟨fields', entries, typeHash, words, hfields', rfl, htype, hwords, rfl⟩ :=
    hashStruct_eq_ok_iff.mp hdomain
  obtain rfl : fields = fields' := Option.some.inj (hfields.symm.trans hfields')
  refine ⟨fields, typeHash, words, hfields, htype, rfl, hfield, ?_⟩
  have hread := optionU64_of_previewDomain h.shownDomain
  rw [show Json.lookup entries "chainId" = some chainValue from hchain] at hread
  cases hshown : shown.domain.chainId with
  | none =>
    rw [hshown] at hread
    exact absurd hread (optionU64_ne_none hnull)
  | some c =>
    obtain rfl := hexpected c hshown
    rw [hshown] at hread
    refine List.Forall₂.imp ?_ (hwords.imp_member hchain)
    intro field word hword hname hinteger
    exact encodeValue_chainId hagree hread hinteger (hword hname)

end Documents

/-- **The preview and the signature agree.** On a document on which both succeed, the digest is that
of the message shown, under the primary type shown; and when the check of the chain passes, the
number of the chain inside the domain separator is the expected one. -/
theorem preview_agrees {crates : Crates} {preview : PreviewCrates}
    (hagree : CratesAgree crates preview) {json : String} {value : Json} {shown : EIP712Message}
    {word : Word} (hjson : crates.parseJson json = .ok value)
    (hshown : parseEip712Json preview value = .ok shown)
    (hhashed : hashTypedData crates json = .ok word) :
    ∃ parsed domainWord fields, TypedData.deserialize value = some parsed ∧
      domainHash crates parsed = .ok domainWord ∧
      ShowsFields crates shown.message fields ∧
      word = crates.keccak256 ([0x19, 0x01] ++ domainWord.val ++
        (encodeVal crates (tableTypeHash crates parsed.types)
          (.struct shown.primaryType fields)).val) ∧
      ∀ expected, validateEip712ChainId crates preview json expected = .ok () →
        ((value.get "domain").bind (Json.get "chainId")).isSome →
        ChainIdHashed crates parsed.types domainWord expected := by
  rw [hashTypedData, hjson, mapError_ok, ok_bind, hashTypedDataValue_eq_ok_iff] at hhashed
  obtain ⟨hbinding, parsed, domainWord, messageWord, hparsed, hdomain, hmessage, rfl⟩ := hhashed
  obtain ⟨domainValue, messageValue, typeEntries, types, hpreviewed⟩ := exists_previewed hshown
  obtain rfl := Option.some.inj (hpreviewed.deserialize.symm.trans hparsed)
  obtain ⟨definedFields, entries, hfields, rfl, htrees⟩ := hpreviewed.struct
  obtain ⟨fields, hshows, rfl⟩ :=
    struct_shows (fun e _ => parseValue_shows hagree e.2) hfields htrees hmessage
  refine ⟨_, domainWord, fields, hparsed, hdomain, hshows, rfl, ?_⟩
  intro expected hvalid hchain
  refine hpreviewed.chainIdHashed hagree hbinding hdomain ?_ hchain
  intro c hc
  simp only [validateEip712ChainId, hjson, mapError_ok, ok_bind, hbinding, hshown, hc,
    guard_eq_ok_iff, not_not] at hvalid
  exact hvalid.1

/-! ## Small documents -/

/-- A reader of numerals: decimal digits, or hex digits after `0x`. -/
def readNumeral : List Char → Option ℕ
  | '0' :: 'x' :: digits =>
    if digits = [] then none
    else digits.foldlM (fun acc c => (hexDigit c).map (16 * acc + ·)) 0
  | text =>
    if text = [] ∨ ¬text.all Char.isDigit then none else some (Nat.ofDigitChars 10 text 0)

/-- A numeral of an unsigned integer. -/
def readUint (text : String) : Except String ℕ :=
  match readNumeral text.toList with
  | some n => if n < 2 ^ 256 then .ok n else .error "number too large"
  | none => .error "invalid digit"

/-- A numeral with an optional sign. -/
def readSigned : List Char → Option ℤ
  | '-' :: rest => (readNumeral rest).map fun n : ℕ => -(n : ℤ)
  | '+' :: rest => (readNumeral rest).map fun n : ℕ => (n : ℤ)
  | text => (readNumeral text).map fun n : ℕ => (n : ℤ)

/-- A numeral of a signed integer. -/
def readInt (text : String) : Except String ℤ :=
  match readSigned text.toList with
  | some z => if -2 ^ 255 ≤ z ∧ z < 2 ^ 255 then .ok z else .error "number too large"
  | none => .error "invalid digit"

/-- Decimal digits are read back. -/
lemma readNumeral_toDigits (n : ℕ) : readNumeral (Nat.toDigits 10 n) = some n := by
  have hdigit : ∀ c ∈ Nat.toDigits 10 n, c.isDigit := fun c hc =>
    Nat.isDigit_of_mem_toDigits (by decide) (by decide) hc
  have hall : (Nat.toDigits 10 n).all Char.isDigit = true := List.all_eq_true.mpr hdigit
  unfold readNumeral
  split
  · rename_i digits heq
    exact absurd (hdigit 'x' (by simp [heq])) (by decide)
  · simp [Nat.toDigits_ne_nil, hall, Nat.ofDigitChars_ten_toDigits]

/-- A numeral that also fits 64 bits is read the same. -/
lemma readNumeral_eq_of_parseU64String {text : String} {n m : ℕ}
    (hn : readNumeral text.toList = some n) (hm : parseU64String text = some m) : n = m := by
  unfold readNumeral at hn
  unfold parseU64String at hm
  split at hn
  · rename_i digits heq
    rw [heq] at hm
    simp only [parseHexU64] at hm
    split_ifs at hn with hempty
    cases digits with
    | nil => exact absurd rfl hempty
    | cons c rest =>
      by_cases hplus : c = '+'
      · subst hplus
        simp [List.foldlM, hexDigit] at hn
      · split at hm
        · rename_i heq'
          exact absurd (List.cons.inj heq').1 hplus
        · rw [if_neg hempty, hn] at hm
          simp only [bind, Option.bind_some] at hm
          split_ifs at hm
          exact Option.some.inj hm
  · rename_i hmark
    split_ifs at hn with hdigits
    obtain rfl := Option.some.inj hn
    split at hm
    · rename_i digits heq
      exact absurd heq (hmark digits)
    · simp only [parseUsize] at hm
      split at hm
      · rename_i rest heq
        simp [heq] at hdigits
      · rw [if_neg hdigits] at hm
        split_ifs at hm
        exact Option.some.inj hm

/-- The decimal text of an integer is read back. -/
lemma readSigned_toString (z : ℤ) : readSigned (toString z).toList = some z := by
  rw [Int.toString_eq_repr, Int.repr_eq_if]
  split_ifs with hpos
  · rw [Nat.toList_repr]
    have hdigit : ∀ c ∈ Nat.toDigits 10 z.toNat, c.isDigit := fun c hc =>
      Nat.isDigit_of_mem_toDigits (by decide) (by decide) hc
    unfold readSigned
    split
    · rename_i rest heq
      exact absurd (hdigit '-' (by simp [heq])) (by decide)
    · rename_i rest heq
      exact absurd (hdigit '+' (by simp [heq])) (by decide)
    · rw [readNumeral_toDigits, Option.map_some, Int.toNat_of_nonneg hpos]
  · rw [String.toList_append, Nat.toList_repr]
    change (readNumeral (Nat.toDigits 10 (-z).toNat)).map (fun n : ℕ => -(n : ℤ)) = some z
    rw [readNumeral_toDigits, Option.map_some, Int.toNat_of_nonneg (by omega), neg_neg]

/-- A numeral with a sign that also fits 64 bits is read the same. -/
lemma readSigned_eq_of_parseU64String {text : String} {z : ℤ} {m : ℕ}
    (hz : readSigned text.toList = some z) (hm : parseU64String text = some m) : z = m := by
  unfold readSigned at hz
  split at hz
  · rename_i rest heq
    simp [parseU64String, heq, parseUsize] at hm
  · rename_i rest heq
    obtain ⟨n, hn, rfl⟩ := Option.map_eq_some_iff.mp hz
    rw [parseU64String, heq] at hm
    change parseUsize ('+' :: rest) = some m at hm
    simp only [parseUsize] at hm
    split_ifs at hm with hdigits
    obtain rfl := Option.some.inj hm
    unfold readNumeral at hn
    split at hn
    · simp at hdigits
    · rw [if_neg hdigits] at hn
      rw [Option.some.inj hn]
  · obtain ⟨n, hn, rfl⟩ := Option.map_eq_some_iff.mp hz
    exact_mod_cast readNumeral_eq_of_parseU64String hn hm

/-- Libraries that have read one document. The hash is a stand-in, the readers are those of
the numerals. -/
def readerCrates (text : String) (value : Json) : Crates where
  keccak256 bytes := toBeBytes (ofBe bytes)
  parseU256 := readUint
  parseI256 := readInt
  parseJson s := if s = text then .ok value else .error "expected value"
  display _ := ""
  hexError _ := ""
  serdeError _ := ""

/-- Libraries that write an address in lower case, which is its checksum if it has no letters. -/
def readerPreview : PreviewCrates where
  checksum bytes := "0x" ++ Keystore.encodeHex bytes.val
  addressError _ := ""
  hexDecodeError _ := ""
  debug _ := ""
  domainError _ := ""
  fieldsError _ := ""

lemma cratesAgree_reader (text : String) (value : Json) :
    CratesAgree (readerCrates text value) readerPreview where
  uint_decimal n hn := by
    have hlist : (toString n).toList = Nat.toDigits 10 n := Nat.toList_repr
    change readUint (toString n) = .ok n
    rw [readUint, hlist, readNumeral_toDigits]
    exact if_pos hn
  int_decimal z hlow hhigh := by
    change readInt (toString z) = .ok z
    rw [readInt, readSigned_toString]
    exact if_pos ⟨hlow, hhigh⟩
  uint_u64 s n m hn hm := by
    change readUint s = .ok n at hn
    rw [readUint] at hn
    split at hn
    · rename_i k hk
      split_ifs at hn
      obtain rfl := Except.ok.inj hn
      exact readNumeral_eq_of_parseU64String hk hm
    · cases hn
  int_u64 s z m hz hm := by
    change readInt s = .ok z at hz
    rw [readInt] at hz
    split at hz
    · rename_i k hk
      split_ifs at hz
      obtain rfl := Except.ok.inj hz
      exact readSigned_eq_of_parseU64String hk hm
    · cases hz
  checksum bytes := by
    change decodeHexPairs (dropHexMark ("0x" ++ Keystore.encodeHex bytes.val).toList) = _
    rw [String.toList_append]
    exact Keystore.decodeHexPairs_encodeHex bytes.val

/-- A document with one struct type, whose domain has a `chainId`. -/
def mailDocument (chainType : String) (chainId : Json) (fieldType : String) (field : Json) : Json :=
  .obj
    [("types", .obj
        [("EIP712Domain", .arr [.obj [("name", .str "chainId"), ("type", .str chainType)]]),
          ("Mail", .arr [.obj [("name", .str "body"), ("type", .str fieldType)]])]),
      ("primaryType", .str "Mail"), ("domain", .obj [("chainId", chainId)]),
      ("message", .obj [("body", field)])]

/-- The text of such a document, from the texts of its values. -/
def mailText (chainType chainId fieldType field : String) : String :=
  "\x7b\"types\":\x7b\"EIP712Domain\":[\x7b\"name\":\"chainId\",\"type\":\"" ++ chainType ++
    "\"\x7d],\"Mail\":[\x7b\"name\":\"body\",\"type\":\"" ++ fieldType ++
    "\"\x7d]\x7d,\"primaryType\":\"Mail\",\"domain\":\x7b\"chainId\":" ++ chainId ++
    "\x7d,\"message\":\x7b\"body\":" ++ field ++ "\x7d\x7d"

/-- Amounts in a message for the first chain. -/
def amountsDocument : Json :=
  mailDocument "uint256" (.num (.posInt 1)) "uint8[]" (.arr [.num (.posInt 7), .str "0x08"])

@[inherit_doc amountsDocument]
def amountsText : String := mailText "uint256" "1" "uint8[]" "[7,\"0x08\"]"

/-- Libraries that have read that document. -/
def amountsCrates : Crates := readerCrates amountsText amountsDocument

lemma exists_ok_of_isOk {ε α : Type} {x : Except ε α} (h : x.isOk = true) : ∃ a, x = .ok a := by
  cases x with
  | ok a => exact ⟨a, rfl⟩
  | error e => cases h

lemma parseJson_readerCrates (text : String) (value : Json) :
    (readerCrates text value).parseJson text = .ok value := if_pos rfl

/-- The preview of the amounts, their digest and the check of the chain. -/
theorem preview_agrees_amounts :
    ∃ shown word, parseEip712Json readerPreview amountsDocument = .ok shown ∧
      hashTypedData amountsCrates amountsText = .ok word ∧
      shown.message = [("body", .array [.uint256 "7", .uint256 "0x08"])] ∧
      ∃ parsed domainWord fields, TypedData.deserialize amountsDocument = some parsed ∧
        ShowsFields amountsCrates shown.message fields ∧
        ChainIdHashed amountsCrates parsed.types domainWord 1 := by
  obtain ⟨word, hword⟩ : ∃ word, hashTypedData amountsCrates amountsText = .ok word :=
    exists_ok_of_isOk (by decide +kernel)
  have hvalid : validateEip712ChainId amountsCrates readerPreview amountsText 1 = .ok () := by
    decide +kernel
  obtain ⟨parsed, domainWord, fields, hparsed, -, hshows, -, hchain⟩ :=
    preview_agrees (cratesAgree_reader amountsText amountsDocument) (parseJson_readerCrates _ _)
      (show parseEip712Json readerPreview amountsDocument = .ok
        ⟨⟨none, none, some 1, none, none⟩, "Mail",
          [("body", .array [.uint256 "7", .uint256 "0x08"])]⟩ from rfl) hword
  exact ⟨_, word, rfl, hword, rfl, parsed, domainWord, fields, hparsed, hshows,
    hchain 1 hvalid rfl⟩

/-- A short tag in a message whose chain is declared as a text. -/
def tagDocument : Json := mailDocument "string" (.str "1") "bytes4" (.str "0x12")

@[inherit_doc tagDocument]
def tagText : String := mailText "string" "\"1\"" "bytes4" "\"0x12\""

/-- Libraries that have read that document. -/
def tagCrates : Crates := readerCrates tagText tagDocument

/-- Its types table. -/
def tagTypes : Types := [("EIP712Domain", [⟨"chainId", "string"⟩]), ("Mail", [⟨"body", "bytes4"⟩])]

/-- The preview and the digest of the tag both succeed and the check of the chain passes; but one
byte is shown where four are hashed, and the word of the `chainId` is not that of the number. -/
theorem preview_differs_on_tag :
    (∃ shown, parseEip712Json readerPreview tagDocument = .ok shown ∧
      shown.message = [("body", .bytes [0x12])]) ∧
    (hashTypedData tagCrates tagText).isOk = true ∧
    validateEip712ChainId tagCrates readerPreview tagText 1 = .ok () ∧
    (TypedData.deserialize tagDocument).map TypedData.types = some tagTypes ∧
    encodeValue tagCrates tagTypes "bytes4" (.str "0x12") =
      .ok (fixedBytesWord 3 ⟨[0x12, 0, 0, 0], rfl⟩) ∧
    ([0x12] : List UInt8) ≠ [0x12, 0, 0, 0] ∧
    encodeValue tagCrates tagTypes "string" (.str "1") ≠ .ok (toBeBytes 1) := by
  refine ⟨⟨⟨⟨none, none, some 1, none, none⟩, "Mail", [("body", .bytes [0x12])]⟩, rfl, rfl⟩, ?_, ?_,
    rfl, ?_, ?_, ?_⟩
  · decide +kernel
  · decide +kernel
  · decide +kernel
  · decide
  · decide +kernel

end GemCore.Eip712
