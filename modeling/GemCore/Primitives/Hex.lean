import GemCore.Lib.Bytes

/-!
# Hexadecimal text

The hex decoder shared by the signing crates (`primitives/src/hex.rs`): surrounding white
space and a `0x` prefix are dropped, and a text of odd length is read with a leading zero.

## Main definitions

* `decodeHex` — `decode_hex`.
* `decodeHexArray` — `decode_hex_array`, which also fixes the number of bytes.
-/

namespace GemCore

/-- `char::is_whitespace`: the Unicode property White_Space. -/
def isWhitespace (c : Char) : Bool :=
  let n := c.toNat
  (9 ≤ n && n ≤ 13) || n == 0x20 || n == 0x85 || n == 0xa0 || n == 0x1680 ||
    (0x2000 ≤ n && n ≤ 0x200a) || n == 0x2028 || n == 0x2029 || n == 0x202f || n == 0x205f ||
    n == 0x3000

/-- `str::trim`. -/
def trim (text : List Char) : List Char :=
  ((text.dropWhile isWhitespace).reverse.dropWhile isWhitespace).reverse

/-- What is dropped in front: everything up to the first character that is no white space. -/
theorem dropWhile_pad {pad text : List Char} (hpad : ∀ c ∈ pad, isWhitespace c = true)
    (hhead : ∀ c ∈ text.head?, isWhitespace c = false) :
    (pad ++ text).dropWhile isWhitespace = text := by
  induction pad with
  | nil =>
    cases text with
    | nil => rfl
    | cons c text => exact List.dropWhile_cons_of_neg (by rw [hhead c rfl]; exact Bool.false_ne_true)
  | cons c pad ih =>
    rw [List.cons_append, List.dropWhile_cons_of_pos (hpad c List.mem_cons_self)]
    exact ih fun d hd => hpad d (List.mem_cons_of_mem c hd)

/-- A text is what remains of it with white space on both sides, when it has none at its ends. -/
theorem trim_pad {before text after : List Char} (hbefore : ∀ c ∈ before, isWhitespace c = true)
    (hafter : ∀ c ∈ after, isWhitespace c = true) (hhead : ∀ c ∈ text.head?, isWhitespace c = false)
    (hlast : ∀ c ∈ text.getLast?, isWhitespace c = false) : trim (before ++ text ++ after) = text := by
  cases text with
  | nil =>
    have hall : ∀ c ∈ before ++ [] ++ after, isWhitespace c = true := by
      intro c hc
      rw [List.append_nil] at hc
      exact (List.mem_append.1 hc).elim (hbefore c) (hafter c)
    have hdrop : (before ++ [] ++ after).dropWhile isWhitespace = [] := by
      simpa using @dropWhile_pad _ [] hall (by simp)
    rw [trim, hdrop]
    rfl
  | cons c text =>
    rw [trim, List.append_assoc, dropWhile_pad hbefore (by simpa using hhead), List.reverse_append,
      dropWhile_pad (by simpa using hafter) (by rwa [List.head?_reverse]), List.reverse_reverse]

/-- What remains of a text has no white space in front. -/
lemma isWhitespace_head_trim {text : List Char} : ∀ c ∈ (trim text).head?, isWhitespace c = false := by
  intro c hc
  obtain ⟨rest, hrest⟩ := List.head?_eq_some_iff.1 hc
  have hprefix : trim text <+: text.dropWhile isWhitespace := by
    rw [trim, ← List.reverse_suffix, List.reverse_reverse]
    exact List.dropWhile_suffix _
  obtain ⟨tail, htail⟩ := hprefix
  have hnot := List.head?_dropWhile_not isWhitespace text
  rw [← htail, hrest] at hnot
  exact hnot

/-- What remains of a text has no white space behind. -/
lemma isWhitespace_last_trim {text : List Char} :
    ∀ c ∈ (trim text).getLast?, isWhitespace c = false := by
  intro c hc
  have hnot := List.head?_dropWhile_not isWhitespace (text.dropWhile isWhitespace).reverse
  rw [trim, List.getLast?_reverse] at hc
  rw [Option.mem_def.1 hc] at hnot
  exact hnot

/-- Nothing is trimmed twice. -/
@[simp] lemma trim_trim (text : List Char) : trim (trim text) = trim text := by
  simpa using @trim_pad [] (trim text) [] (by simp) (by simp) isWhitespace_head_trim
    isWhitespace_last_trim

/-- `str::split_whitespace`. -/
def splitWhitespace (text : List Char) : List (List Char) :=
  (text.splitOnP isWhitespace).filter (· ≠ [])

/-- A word is not split again. -/
lemma splitWhitespace_of_mem {text word : List Char} (h : word ∈ splitWhitespace text) :
    splitWhitespace word = [word] := by
  obtain ⟨hmem, hne⟩ := List.mem_filter.mp h
  have hall : ∀ c ∈ word, isWhitespace c = false := by
    clear h hne
    induction text generalizing word with
    | nil =>
      obtain rfl := List.mem_singleton.mp hmem
      simp
    | cons x text ih =>
      rw [List.splitOnP_cons_eq_if_modifyHead] at hmem
      split_ifs at hmem with hx
      · obtain rfl | hmem := List.mem_cons.mp hmem
        · simp
        · exact ih hmem
      · obtain ⟨first, rest, hrest⟩ := List.exists_cons_of_ne_nil (text.splitOnP_ne_nil isWhitespace)
        rw [hrest, List.modifyHead_cons] at hmem
        obtain rfl | hmem := List.mem_cons.mp hmem
        · simpa [hx] using ih (hrest ▸ List.mem_cons_self)
        · exact ih (hrest ▸ List.mem_cons_of_mem _ hmem)
  rw [splitWhitespace, List.splitOnP_eq_singleton hall]
  simpa using hne
/-- The value of a hex digit. -/
def hexDigit (c : Char) : Option ℕ :=
  if '0' ≤ c ∧ c ≤ '9' then some (c.toNat - '0'.toNat)
  else if 'a' ≤ c ∧ c ≤ 'f' then some (c.toNat - 'a'.toNat + 10)
  else if 'A' ≤ c ∧ c ≤ 'F' then some (c.toNat - 'A'.toNat + 10)
  else none

/-- `hex::decode`: two digits a byte. -/
def decodeHexPairs : List Char → Option (List UInt8)
  | [] => some []
  | [_] => none
  | high :: low :: rest => do
    let h ← hexDigit high
    let l ← hexDigit low
    let bytes ← decodeHexPairs rest
    some (UInt8.ofNat (16 * h + l) :: bytes)

/-- `strip_prefix("0x")`, keeping the text when it has no such prefix. -/
def dropHexMark : List Char → List Char
  | '0' :: 'x' :: rest => rest
  | text => text

/-- `decode_hex`. A text with a character outside ASCII is rejected whatever its length, so
counting characters instead of bytes makes no difference. -/
def decodeHex (value : String) : Option (List UInt8) :=
  let stripped := dropHexMark (trim value.toList)
  if stripped = [] then some []
  else decodeHexPairs (if stripped.length % 2 = 1 then '0' :: stripped else stripped)

/-- `decode_hex_array`. -/
def decodeHexArray (n : ℕ) (value : String) : Option (Lib.FixedBytes n) :=
  match decodeHex value with
  | some bytes => if h : bytes.length = n then some ⟨bytes, h⟩ else none
  | none => none

end GemCore
