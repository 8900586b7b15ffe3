import GemCore.Lib.Result
import GemCore.Primitives.SignerError
import Mathlib.Data.List.TakeDrop
import Mathlib.Data.List.TakeWhile

/-!
# EIP-712 type names

The types of a typed-data document are texts: `uint64`, `bytes32`, `Person`, `Person[3][]`. The
signer takes them apart with the helpers of `signer/src/eip712/parse.rs`. The types the texts
stand for are the trees of `Ty`; on the text of such a tree the helpers find its
outermost constructor.

## Main definitions

* `parseArrayType`, `baseTypeName`, `parseNumericBits`, `parseFixedBytesSize`.
* `Ty` — the types of the specification, with their texts.
* `IsStructName` — the names a struct type may have.

## Main results

* `parseArrayType_array`, `parseArrayType_of_noBracket` — an array type is split into its element
  type and its length, and no other type is.
* `baseTypeName_text` — the base name of a type is the text of its innermost element type.
-/

namespace GemCore.Eip712

/-! ## Taking a text apart -/

/-- `str::parse::<usize>`, and the same for `u64`: decimal digits, with an optional plus sign. -/
def parseUsize (text : List Char) : Option ℕ :=
  let digits := match text with
    | '+' :: rest => rest
    | _ => text
  if digits = [] ∨ ¬digits.all Char.isDigit then none
  else
    let n := Nat.ofDigitChars 10 digits 0
    if n < 2 ^ 64 then some n else none

/-- The text before the last `[` of a text that ends in `]`, and the text between the two. -/
def splitBracket (text : List Char) : Option (List Char × List Char) :=
  match text.reverse.tail.span (· ≠ '[') with
  | (_, []) => none
  | (length, _ :: element) => some (element.reverse, length.reverse)

/-- `parse_array_type`: the element type and the length, if there is one. -/
def parseArrayType (typeName : String) : Except SignerError (Option (String × Option ℕ)) :=
  let text := typeName.toList
  if text.getLast? ≠ some ']' then
    if '[' ∈ text then .error (.invalidInput s!"Malformed array type '{typeName}'") else .ok none
  else
    match splitBracket text with
    | none => .error (.invalidInput s!"Malformed array type '{typeName}'")
    | some (element, length) =>
      if element = [] then .error (.invalidInput s!"Malformed array type '{typeName}'")
      else if length = [] then .ok (some (String.ofList element, none))
      else do
        let n ← Lib.okOr (parseUsize length)
          (.invalidInput s!"Invalid array length for type '{typeName}'")
        .ok (some (String.ofList element, some n))

/-- `base_type_name`. -/
def baseTypeName (typeName : String) : String :=
  String.ofList (typeName.toList.takeWhile (· ≠ '['))

/-- `parse_numeric_bits`: the size that follows `start` in the name of an integer type. -/
def parseNumericBits (typeName start : String) : Except SignerError ℕ :=
  let bitsPart := typeName.toList.drop start.length
  if bitsPart = [] then .ok 256
  else do
    let bits ← Lib.okOr (parseUsize bitsPart)
      (.invalidInput s!"Invalid bit size for type '{typeName}'")
    if bits = 0 ∨ 32 * 8 < bits ∨ bits % 8 ≠ 0 then
      .error (.invalidInput s!"Unsupported bit size for type '{typeName}'")
    else .ok bits

/-- `parse_fixed_bytes_size`. -/
def parseFixedBytesSize (typeName : String) : Except SignerError ℕ :=
  let sizePart := typeName.toList.drop "bytes".length
  if sizePart = [] then .error (.invalidInput s!"Invalid fixed bytes type '{typeName}'")
  else do
    let size ← Lib.okOr (parseUsize sizePart) (.invalidInput s!"Invalid length for {typeName}")
    if size = 0 ∨ 32 < size then .error (.invalidInput s!"Unsupported length for {typeName}")
    else .ok size

/-- `starts_with`. -/
def startsWith (start text : String) : Bool := start.toList.isPrefixOf text.toList

/-! ## Types -/

/-- The types of the specification. A width `w` stands for `w + 1` bytes. -/
inductive Ty where
  | uint (width : Fin 32)
  | int (width : Fin 32)
  | fixedBytes (width : Fin 32)
  | bool
  | address
  | string
  | bytes
  | struct (name : String)
  | array (element : Ty) (length : Option UInt64)

/-- The number of bytes a width stands for. -/
def byteSize (width : Fin 32) : ℕ := width.val + 1

namespace Ty

/-- The text between the brackets of an array type. -/
def lengthText : Option UInt64 → String
  | none => ""
  | some n => toString n.toNat

/-- The name of a type in a document. -/
def text : Ty → String
  | uint w => "uint" ++ toString (8 * byteSize w)
  | int w => "int" ++ toString (8 * byteSize w)
  | fixedBytes w => "bytes" ++ toString (byteSize w)
  | bool => "bool"
  | address => "address"
  | string => "string"
  | bytes => "bytes"
  | struct name => name
  | array element length => element.text ++ "[" ++ lengthText length ++ "]"

/-- The types that are neither structs nor arrays. -/
def IsAtomic : Ty → Prop
  | struct _ => False
  | array _ _ => False
  | _ => True

/-- The innermost element type. -/
def base : Ty → Ty
  | array element _ => element.base
  | t => t

/-- The innermost element type is a struct or atomic. -/
lemma base_cases (t : Ty) : (∃ name, t.base = struct name) ∨ t.base.IsAtomic := by
  induction t with
  | struct name => exact .inl ⟨name, rfl⟩
  | array element length ih => exact ih
  | _ => exact .inr trivial

end Ty

/-- A text without brackets. -/
def NoBracket (text : String) : Prop := '[' ∉ text.toList ∧ ']' ∉ text.toList

instance (text : String) : Decidable (NoBracket text) :=
  inferInstanceAs (Decidable ('[' ∉ text.toList ∧ ']' ∉ text.toList))

/-- The names a struct type may have: not empty, without brackets, and not the name of an atomic
type. Every identifier is such a name. -/
structure IsStructName (name : String) : Prop where
  nonempty : name ≠ ""
  noBracket : NoBracket name
  notAtomic : ∀ t : Ty, t.IsAtomic → name ≠ t.text

/-- The struct at the bottom of a type has a proper name. -/
def Ty.Proper (t : Ty) : Prop := ∀ name, t.base = .struct name → IsStructName name

/-! ## The texts of types -/

/-- A number of 64 bits is read back from its decimal digits. -/
lemma parseUsize_toString {n : ℕ} (h : n < 2 ^ 64) : parseUsize (toString n).toList = some n := by
  have hdigit : ∀ c ∈ Nat.toDigits 10 n, c.isDigit := fun c hc =>
    Nat.isDigit_of_mem_toDigits (by decide) (by decide) hc
  have hplus : ∀ rest, Nat.toDigits 10 n ≠ '+' :: rest := by
    intro rest hrest
    exact absurd (hdigit '+' (by simp [hrest])) (by decide)
  have hall : (Nat.toDigits 10 n).all Char.isDigit = true := List.all_eq_true.mpr hdigit
  have hlist : (toString n).toList = Nat.toDigits 10 n := Nat.toList_repr
  rw [hlist]
  unfold parseUsize
  split
  · exact absurd ‹_› (hplus _)
  · simpa [Nat.toDigits_ne_nil, hall, Nat.ofDigitChars_ten_toDigits] using h

/-- Decimal digits are no brackets. -/
lemma noBracket_toString (n : ℕ) : NoBracket (toString n) := by
  have hlist : (toString n).toList = Nat.toDigits 10 n := Nat.toList_repr
  rw [NoBracket, hlist]
  constructor <;> intro hc <;>
    exact absurd (Nat.isDigit_of_mem_toDigits (by decide) (by decide) hc) (by decide)

lemma NoBracket.append {s t : String} (hs : NoBracket s) (ht : NoBracket t) :
    NoBracket (s ++ t) := by
  simp only [NoBracket, String.toList_append, List.mem_append, not_or]
  exact ⟨⟨hs.1, ht.1⟩, hs.2, ht.2⟩

/-- The atomic types are written without brackets. -/
lemma noBracket_of_isAtomic {t : Ty} (h : t.IsAtomic) : NoBracket t.text := by
  cases t with
  | uint w | int w | fixedBytes w => exact NoBracket.append (by decide) (noBracket_toString _)
  | bool | address | string | bytes => decide
  | struct name | array element length => exact h.elim

/-- A text without brackets is no array type. -/
lemma parseArrayType_of_noBracket {text : String} (h : NoBracket text) :
    parseArrayType text = .ok none := by
  have hlast : text.toList.getLast? ≠ some ']' := fun hl => h.2 (List.mem_of_getLast? hl)
  simp only [parseArrayType]
  rw [if_pos hlast, if_neg h.1]

/-- A text without an opening bracket is its own base name. -/
lemma baseTypeName_of_not_mem {text : String} (h : '[' ∉ text.toList) :
    baseTypeName text = text := by
  have hall : text.toList.takeWhile (· ≠ '[') = text.toList := by
    rw [List.takeWhile_eq_self_iff]
    intro c hc
    simpa using fun heq : c = '[' => h (heq ▸ hc)
  rw [baseTypeName, hall, String.ofList_toList]

lemma baseTypeName_of_noBracket {text : String} (h : NoBracket text) :
    baseTypeName text = text := baseTypeName_of_not_mem h.1

/-- A type that is found to be no array has no opening bracket. -/
lemma not_mem_of_parseArrayType {text : String} (h : parseArrayType text = .ok none) :
    '[' ∉ text.toList := by
  simp only [parseArrayType] at h
  split_ifs at h with hlast hbracket
  · exact hbracket
  · split at h
    · cases h
    · split_ifs at h
      · cases h
      · simp only [Lib.bind_eq_ok_iff, Except.ok.injEq] at h
        obtain ⟨_, _, h⟩ := h
        cases h

/-- A text is split at the last bracket. -/
lemma splitBracket_append {element length : List Char} (h : '[' ∉ length) :
    splitBracket (element ++ '[' :: length ++ [']']) = some (element, length) := by
  have hrev : (element ++ '[' :: length ++ [']']).reverse.tail =
      length.reverse ++ '[' :: element.reverse := by simp
  have hspan : (length.reverse ++ '[' :: element.reverse).span (· ≠ '[') =
      (length.reverse, '[' :: element.reverse) := by
    rw [List.span_eq_takeWhile_dropWhile, List.takeWhile_append_of_pos,
      List.dropWhile_append_of_pos]
    · simp
    all_goals
      intro c hc
      simpa using fun heq : c = '[' => h (heq ▸ List.mem_reverse.mp hc)
  rw [splitBracket, hrev, hspan]
  simp

/-- **An array type is split** into its element type and its length. -/
theorem parseArrayType_array {element : Ty} {length : Option UInt64} (h : element.text ≠ "") :
    parseArrayType (Ty.array element length).text =
      .ok (some (element.text, length.map UInt64.toNat)) := by
  have hlist : (Ty.array element length).text.toList =
      element.text.toList ++ '[' :: (Ty.lengthText length).toList ++ [']'] := by
    simp [Ty.text]
  have hbracket : '[' ∉ (Ty.lengthText length).toList := by
    cases length with
    | none => simp [Ty.lengthText]
    | some n => exact (noBracket_toString _).1
  have hne : element.text.toList ≠ [] := by simpa using h
  simp only [parseArrayType]
  rw [if_neg (by rw [hlist, List.getLast?_append]; simp), hlist, splitBracket_append hbracket]
  simp only [hne, if_false, String.ofList_toList]
  cases length with
  | none => simp [Ty.lengthText]
  | some n =>
    have hdigits : (toString n.toNat).toList ≠ [] := by
      rw [show (toString n.toNat).toList = Nat.toDigits 10 n.toNat from Nat.toList_repr]
      exact Nat.toDigits_ne_nil
    simp only [Ty.lengthText, hdigits, if_false, parseUsize_toString n.toNat_lt]
    rfl

/-- A proper type has a name. -/
lemma Ty.Proper.text_ne_empty {t : Ty} (h : t.Proper) : t.text ≠ "" := by
  have hsize : t.text.toList ≠ [] := by
    cases t with
    | struct name => simpa [Ty.text] using (h name rfl).nonempty
    | _ => simp [Ty.text]
  simpa using hsize

/-- **The base name of a type** is the text of its innermost element type. -/
theorem baseTypeName_text {t : Ty} (h : t.Proper) : baseTypeName t.text = t.base.text := by
  induction t with
  | array element length ih =>
    have hlist : (Ty.array element length).text.toList =
        element.text.toList ++ '[' :: ((Ty.lengthText length).toList ++ [']']) := by
      simp [Ty.text]
    have htake : ∀ (l r : List Char), (l ++ '[' :: r).takeWhile (· ≠ '[') =
        l.takeWhile (· ≠ '[') := by
      intro l r
      induction l with
      | nil => simp
      | cons c l ihl => simp only [List.cons_append, List.takeWhile_cons, ihl]
    rw [baseTypeName, hlist, htake]
    exact ih h
  | struct name => exact baseTypeName_of_noBracket (h name rfl).noBracket
  | _ => exact baseTypeName_of_noBracket (noBracket_of_isAtomic trivial)

example : baseTypeName "uint256[][2]" = "uint256" := by decide +kernel

end GemCore.Eip712
