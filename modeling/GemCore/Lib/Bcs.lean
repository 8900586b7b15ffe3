import GemCore.Lib.Bytes
import GemCore.Lib.Leb128
import Mathlib.Data.List.Forall2

/-!
# Binary canonical serialization

The readers and writers of the BCS format: a boolean is a byte, a number or an address has its bytes in a
fixed width, and a sequence has its length, in base 128 and in the shortest form, before its items. A
reader takes what it reads off the front of a byte string.

## Main definitions

* `Bcs.Reader` — what takes a value off the front.
* `Bcs.readBool`, `Bcs.readFixed`, `Bcs.readSeq` — the readers.
* `Bcs.writeSeq` — the bytes of a sequence, from those of its items.

## Main results

* `Bcs.readSeq_writeSeq` — a sequence is read back when its items are.
-/

namespace Lib

/-- A number in base 128, with what is behind it. -/
def readLeb128 : List UInt8 → Option (ℕ × List UInt8)
  | [] => none
  | b :: rest =>
    if b.toNat < 128 then some (b.toNat, rest)
    else (readLeb128 rest).map fun read => (b.toNat % 128 + 128 * read.1, read.2)

/-- A form of a number is read as that number. -/
lemma readLeb128_append {bytes : List UInt8} {n : ℕ} (h : IsLeb128 bytes n) (rest : List UInt8) :
    readLeb128 (bytes ++ rest) = some (n, rest) := by
  induction h with
  | last b hb => rw [List.singleton_append, readLeb128, if_pos hb]
  | more b hb _ ih => rw [List.cons_append, readLeb128, if_neg (by omega), ih, Option.map_some]

namespace Bcs

variable {α : Type}

/-- What takes a value off the front of a byte string. -/
abbrev Reader (α : Type) : Type := List UInt8 → Option (α × List UInt8)

/-- The longest sequence. -/
def maxSequenceLength : ℕ := 2 ^ 31 - 1

/-- A boolean: a byte that is zero or one. -/
def readBool : Reader Bool
  | 0 :: rest => some (false, rest)
  | 1 :: rest => some (true, rest)
  | _ => none

/-- The byte of a boolean. -/
def writeBool (b : Bool) : List UInt8 := if b then [1] else [0]

lemma readBool_writeBool (b : Bool) (rest : List UInt8) :
    readBool (writeBool b ++ rest) = some (b, rest) := by
  cases b <;> rfl

/-- So many bytes. -/
def readFixed (n : ℕ) : Reader (List UInt8) := takeBytes n

lemma readFixed_append {bytes : List UInt8} {n : ℕ} (h : bytes.length = n) (rest : List UInt8) :
    readFixed n (bytes ++ rest) = some (bytes, rest) := takeBytes_append rest h

/-- The length of a sequence, in its shortest form. -/
def readLength : Reader ℕ := fun bytes => do
  let (n, rest) ← readLeb128 bytes
  if n ≤ maxSequenceLength ∧ bytes = leb128 n ++ rest then some (n, rest) else none

lemma readLength_append {n : ℕ} (h : n ≤ maxSequenceLength) (rest : List UInt8) :
    readLength (leb128 n ++ rest) = some (n, rest) := by
  rw [readLength, readLeb128_append (isLeb128_leb128 n)]
  exact if_pos ⟨h, rfl⟩

/-- So many items. -/
def readMany (item : Reader α) : ℕ → Reader (List α)
  | 0, bytes => some ([], bytes)
  | n + 1, bytes => do
    let (first, bytes) ← item bytes
    let (others, bytes) ← readMany item n bytes
    some (first :: others, bytes)

/-- Items are read back from their bytes one behind the other. -/
lemma readMany_append {item : Reader α} {items : List α} {texts : List (List UInt8)}
    (h : List.Forall₂ (fun x text => ∀ rest, item (text ++ rest) = some (x, rest)) items texts)
    (rest : List UInt8) : readMany item items.length (texts.flatten ++ rest) = some (items, rest) := by
  induction h with
  | nil => rfl
  | @cons x text items texts hfirst _ ih =>
    rw [List.length_cons, readMany, List.flatten_cons, List.append_assoc, hfirst]
    simp only [Option.bind_eq_bind, Option.bind_some, ih]

/-- A sequence of items. -/
def readSeq (item : Reader α) : Reader (List α) := fun bytes => do
  let (n, bytes) ← readLength bytes
  readMany item n bytes

/-- The bytes of a sequence, which may be too long. -/
def writeSeq (items : List (List UInt8)) : Option (List UInt8) :=
  if items.length ≤ maxSequenceLength then some (leb128 items.length ++ items.flatten) else none

/-- **A sequence is read back** when each of its items is. -/
theorem readSeq_writeSeq {item : Reader α} {items : List α} {texts : List (List UInt8)}
    (h : List.Forall₂ (fun x text => ∀ rest, item (text ++ rest) = some (x, rest)) items texts)
    {bytes : List UInt8} (hbytes : writeSeq texts = some bytes) (rest : List UInt8) :
    readSeq item (bytes ++ rest) = some (items, rest) := by
  unfold writeSeq at hbytes
  split at hbytes
  case isFalse => cases hbytes
  case isTrue hlength =>
    cases hbytes
    rw [readSeq, List.append_assoc, readLength_append hlength, Option.bind_eq_bind, Option.bind_some,
      ← h.length_eq]
    exact readMany_append h rest

end Bcs

end Lib
