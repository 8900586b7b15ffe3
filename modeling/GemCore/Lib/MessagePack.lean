import GemCore.Lib.Bytes

/-!
# MessagePack

Values in MessagePack. A value starts with a head: the first byte tells its kind and holds an
argument, or the number of bytes behind it that do. The argument is the integer itself, or the
length of what follows. In its strict form the reader refuses an argument that has a shorter head.

## Main definitions

* `MessagePack` — values.
* `MessagePack.form` — what a first byte tells.
* `MessagePack.item`, `MessagePack.decode` — the reader of one value, and of one value and nothing
  else.

## Main results

* `MessagePack.head_short`, `head_long` — a head is read back.
* `MessagePack.readMany_append` — what a counted reader makes of the front of its input.
-/

namespace Lib

/-- A value. A float keeps its bytes. -/
inductive MessagePack where
  | nil
  | bool (b : Bool)
  | int (z : ℤ)
  | float (data : List UInt8)
  | str (s : String)
  | bin (data : List UInt8)
  | array (items : List MessagePack)
  | map (entries : List (MessagePack × MessagePack))
  | ext (type : UInt8) (data : List UInt8)

namespace MessagePack

/-! ## Heads -/

/-- The kind of a value. A signed integer is in two's complement, with the bound of those that are
not negative. -/
inductive Kind where
  | nil
  | bool
  | uint
  | int (bound : ℕ)
  | float
  | str
  | bin
  | array
  | map
  | ext
  deriving DecidableEq

/-- What a first byte tells: the argument, or how many bytes it is in. These are the shortest form of
the arguments from `least` on and below `most`. -/
inductive Form where
  | short (kind : Kind) (argument : ℕ)
  | long (kind : Kind) (width least most : ℕ)
  deriving DecidableEq

/-- The forms of the first bytes from `0xc0` to `0xdf`. -/
def middleForms : List (Option Form) := [
  some (.short .nil 0), none, some (.short .bool 0), some (.short .bool 1),
  some (.long .bin 1 0 (2 ^ 8)), some (.long .bin 2 (2 ^ 8) (2 ^ 16)),
  some (.long .bin 4 (2 ^ 16) (2 ^ 32)),
  some (.long .ext 1 0 (2 ^ 8)), some (.long .ext 2 (2 ^ 8) (2 ^ 16)),
  some (.long .ext 4 (2 ^ 16) (2 ^ 32)),
  some (.short .float 4), some (.short .float 8),
  some (.long .uint 1 (2 ^ 7) (2 ^ 8)), some (.long .uint 2 (2 ^ 8) (2 ^ 16)),
  some (.long .uint 4 (2 ^ 16) (2 ^ 32)), some (.long .uint 8 (2 ^ 32) (2 ^ 64)),
  some (.long (.int (2 ^ 7)) 1 (2 ^ 7) (2 ^ 8 - 2 ^ 5)),
  some (.long (.int (2 ^ 15)) 2 (2 ^ 15) (2 ^ 16 - 2 ^ 7)),
  some (.long (.int (2 ^ 31)) 4 (2 ^ 31) (2 ^ 32 - 2 ^ 15)),
  some (.long (.int (2 ^ 63)) 8 (2 ^ 63) (2 ^ 64 - 2 ^ 31)),
  some (.short .ext 1), some (.short .ext 2), some (.short .ext 4), some (.short .ext 8),
  some (.short .ext 16),
  some (.long .str 1 (2 ^ 5) (2 ^ 8)), some (.long .str 2 (2 ^ 8) (2 ^ 16)),
  some (.long .str 4 (2 ^ 16) (2 ^ 32)),
  some (.long .array 2 (2 ^ 4) (2 ^ 16)), some (.long .array 4 (2 ^ 16) (2 ^ 32)),
  some (.long .map 2 (2 ^ 4) (2 ^ 16)), some (.long .map 4 (2 ^ 16) (2 ^ 32))]

/-- The form of a first byte. -/
def form (b : ℕ) : Option Form :=
  if b < 0x80 then some (.short .uint b)
  else if b < 0x90 then some (.short .map (b - 0x80))
  else if b < 0xa0 then some (.short .array (b - 0x90))
  else if b < 0xc0 then some (.short .str (b - 0xa0))
  else if b < 0xe0 then middleForms[b - 0xc0]?.join
  else some (.short (.int (2 ^ 7)) b)

/-- The kind and the argument of a head. -/
def head (strict : Bool) : List UInt8 → Option (Kind × ℕ × List UInt8)
  | [] => none
  | b :: rest =>
    match form b.toNat with
    | none => none
    | some (.short kind n) => some (kind, n, rest)
    | some (.long kind width least most) =>
      match takeBytes width rest with
      | none => none
      | some (data, rest) =>
        if strict = true ∧ (ofBe data < least ∨ most ≤ ofBe data) then none
        else some (kind, ofBe data, rest)

/-! ## Reading -/

/-- As many results of a reader as asked for. -/
def readMany {α : Type} (read : List UInt8 → Option (α × List UInt8)) :
    ℕ → List UInt8 → Option (List α × List UInt8)
  | 0, rest => some ([], rest)
  | n + 1, rest =>
    match read rest with
    | none => none
    | some (first, rest) => (readMany read n rest).map fun (others, rest) => (first :: others, rest)

/-- Two results of a reader. -/
def readPair {α : Type} (read : List UInt8 → Option (α × List UInt8)) (rest : List UInt8) :
    Option ((α × α) × List UInt8) :=
  match read rest with
  | none => none
  | some (key, rest) => (read rest).map fun (value, rest) => ((key, value), rest)

/-- What stands behind a head. -/
def content (read : List UInt8 → Option (MessagePack × List UInt8)) (kind : Kind) (n : ℕ)
    (rest : List UInt8) : Option (MessagePack × List UInt8) :=
  match kind with
  | .nil => some (.nil, rest)
  | .bool => some (.bool (n = 1), rest)
  | .uint => some (.int n, rest)
  | .int bound => some (.int (if n < bound then n else n - 2 * bound), rest)
  | .float => (takeBytes n rest).map fun (data, rest) => (.float data, rest)
  | .str => (takeBytes n rest).bind fun (data, rest) =>
    (String.fromUTF8? ⟨data.toArray⟩).map fun s => (.str s, rest)
  | .bin => (takeBytes n rest).map fun (data, rest) => (.bin data, rest)
  | .array => (readMany read n rest).map fun (items, rest) => (.array items, rest)
  | .map => (readMany (readPair read) n rest).map fun (entries, rest) => (.map entries, rest)
  | .ext =>
    match rest with
    | [] => none
    | type :: rest => (takeBytes n rest).map fun (data, rest) => (.ext type data, rest)

/-- One value from the front of an input, with values nested in it as deep as told. -/
def item (strict : Bool) : ℕ → List UInt8 → Option (MessagePack × List UInt8)
  | 0, _ => none
  | depth + 1, input =>
    match head strict input with
    | none => none
    | some (kind, n, rest) => content (item strict depth) kind n rest

/-- One value and nothing behind it. Every value takes a byte, which bounds the depth. -/
def decode (strict : Bool) (input : List UInt8) : Option MessagePack :=
  match item strict input.length input with
  | some (v, []) => some v
  | _ => none

/-! ## Reading what was written -/

variable {strict : Bool}

/-- An argument in the first byte. -/
lemma head_short {b : UInt8} {kind : Kind} {n : ℕ} (h : form b.toNat = some (.short kind n))
    (rest : List UInt8) : head strict (b :: rest) = some (kind, n, rest) := by
  rw [head, h]

/-- An argument in bytes of its own, which keep it modulo what they hold. -/
lemma head_long_eq {b : UInt8} {kind : Kind} {width least most : ℕ}
    (h : form b.toNat = some (.long kind width least most)) (n : ℕ) (rest : List UInt8) :
    head strict (b :: (beBytes width n ++ rest)) =
      if strict = true ∧ (n % 256 ^ width < least ∨ most ≤ n % 256 ^ width) then none
      else some (kind, n % 256 ^ width, rest) := by
  rw [head, h]
  simp only [takeBytes_append rest (length_beBytes width n), ofBe_beBytes]

/-- An argument in as few bytes as it fits. -/
lemma head_long {b : UInt8} {kind : Kind} {width least most n : ℕ}
    (h : form b.toNat = some (.long kind width least most)) (hn : n < 256 ^ width)
    (hleast : least ≤ n) (hmost : n < most) (rest : List UInt8) :
    head strict (b :: (beBytes width n ++ rest)) = some (kind, n, rest) := by
  rw [head_long_eq h, Nat.mod_eq_of_lt hn, if_neg (by omega)]

/-- **What a counted reader makes of the front of its input**: what was written there, and then what
it makes of the rest. -/
theorem readMany_append {α β : Type} {read : List UInt8 → Option (α × List UInt8)}
    {write : β → List UInt8} {value : β → α} {written : List β}
    (h : ∀ x ∈ written, ∀ rest, read (write x ++ rest) = some (value x, rest)) (n : ℕ)
    (rest : List UInt8) :
    readMany read (written.length + n) (written.flatMap write ++ rest) =
      (readMany read n rest).map fun (others, rest) => (written.map value ++ others, rest) := by
  induction written with
  | nil => simp
  | cons x written ih =>
    have hfirst := h x List.mem_cons_self (written.flatMap write ++ rest)
    have hothers := ih fun y hy => h y (List.mem_cons_of_mem x hy)
    rw [List.length_cons, Nat.add_right_comm, List.flatMap_cons, List.append_assoc, readMany, hfirst]
    simp only [hothers, Option.map_map]
    rfl

end MessagePack

end Lib
