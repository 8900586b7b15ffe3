import GemCore.Primitives.Json

/-!
# JSON texts

The compact text of a value, as `serde_json::to_string` writes it: no blanks, the entries of an
object in order, and in strings the quote, the backslash and the control characters escaped.

## Main definitions

* `write` — the characters of a value.
* `writePretty` — the characters with a line for each item and entry.
* `text`, `toVec` — the text of a value, and its bytes.

## Main results

* `toVec_eq_iff` — the bytes determine the characters.
* `toVec_arr_ne_obj` — an array is not written as an object.
-/

namespace GemCore.Json

/-- A hexadecimal digit in lower case. -/
def hexChar (n : ℕ) : Char := if n < 10 then Char.ofNat (48 + n) else Char.ofNat (87 + n)

/-- A character in a string. -/
def escapeChar (c : Char) : List Char :=
  match c with
  | '"' => ['\\', '"']
  | '\\' => ['\\', '\\']
  | '\n' => ['\\', 'n']
  | '\r' => ['\\', 'r']
  | '\t' => ['\\', 't']
  | c =>
    if c.toNat = 8 then ['\\', 'b']
    else if c.toNat = 12 then ['\\', 'f']
    else if c.toNat < 32 then ['\\', 'u', '0', '0', hexChar (c.toNat / 16), hexChar (c.toNat % 16)]
    else [c]

/-- A string with its quotes. -/
def writeString (s : String) : List Char := '"' :: s.toList.flatMap escapeChar ++ ['"']

mutual

/-- The characters of a value. -/
def write : Json → List Char
  | null => ['n', 'u', 'l', 'l']
  | bool true => ['t', 'r', 'u', 'e']
  | bool false => ['f', 'a', 'l', 's', 'e']
  | num n => n.text.toList
  | str s => writeString s
  | arr [] => ['[', ']']
  | arr (x :: items) => '[' :: write x ++ writeItems items ++ [']']
  | obj [] => ['\x7b', '\x7d']
  | obj ((key, x) :: entries) =>
    '\x7b' :: writeString key ++ ':' :: write x ++ writeEntries entries ++ ['\x7d']

/-- The items after the first one. -/
def writeItems : List Json → List Char
  | [] => []
  | x :: items => ',' :: write x ++ writeItems items

/-- The entries after the first one. -/
def writeEntries : List (String × Json) → List Char
  | [] => []
  | (key, x) :: entries => ',' :: writeString key ++ ':' :: write x ++ writeEntries entries

end

/-- A new line, indented by two blanks for each level. -/
def newline (depth : ℕ) : List Char := '\n' :: List.replicate (2 * depth) ' '

mutual

/-- The characters of a value with a line for each item and entry. -/
def writePretty (depth : ℕ) : Json → List Char
  | arr (x :: items) =>
    '[' :: newline (depth + 1) ++ writePretty (depth + 1) x ++ prettyItems (depth + 1) items ++
      newline depth ++ [']']
  | obj ((key, x) :: entries) =>
    '\x7b' :: newline (depth + 1) ++ writeString key ++ [':', ' '] ++ writePretty (depth + 1) x ++
      prettyEntries (depth + 1) entries ++ newline depth ++ ['\x7d']
  | j => write j

/-- The items after the first one. -/
def prettyItems (depth : ℕ) : List Json → List Char
  | [] => []
  | x :: items => ',' :: newline depth ++ writePretty depth x ++ prettyItems depth items

/-- The entries after the first one. -/
def prettyEntries (depth : ℕ) : List (String × Json) → List Char
  | [] => []
  | (key, x) :: entries =>
    ',' :: newline depth ++ writeString key ++ [':', ' '] ++ writePretty depth x ++
      prettyEntries depth entries

end

/-- `serde_json::to_string`. -/
def text (j : Json) : String := String.ofList j.write

/-- `serde_json::to_vec`. -/
def toVec (j : Json) : List UInt8 := j.text.toUTF8.data.toList

/-- `serde_json::to_vec_pretty`. -/
def toVecPretty (j : Json) : List UInt8 := (String.ofList (j.writePretty 0)).toUTF8.data.toList

/-- The bytes determine the characters. -/
lemma toVec_eq_iff {a b : Json} : a.toVec = b.toVec ↔ a.write = b.write := by
  constructor
  · intro h
    have hbytes : a.text.toByteArray = b.text.toByteArray :=
      ByteArray.ext (Array.toList_inj.mp h)
    exact String.ofList_injective (String.toByteArray_inj.mp hbytes)
  · intro h
    rw [toVec, toVec, text, text, h]

/-- The text of an array starts with a bracket, that of an object with a brace. -/
theorem toVec_arr_ne_obj (items : List Json) (entries : List (String × Json)) :
    (arr items).toVec ≠ (obj entries).toVec := by
  intro h
  have hhead := congrArg List.head? (toVec_eq_iff.mp h)
  have harr : (arr items).write.head? = some '[' := by cases items <;> simp [write]
  have hobj : (obj entries).write.head? = some '\x7b' := by cases entries <;> simp [write]
  rw [harr, hobj] at hhead
  exact absurd hhead (by decide)

end GemCore.Json
