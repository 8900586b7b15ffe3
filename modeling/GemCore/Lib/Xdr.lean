import GemCore.Lib.Bytes

/-!
# The XDR format

External data representation, as a reader takes its items from the front of an input: big-endian
integers of four and eight bytes, and byte strings that are filled up with zeros to whole words of
four bytes.

## Main definitions

* `Reader` — what takes an item from the front of the input.
* `uint32`, `uint64`, `int64` — the integers.
* `fixedOpaque`, `varOpaque` — byte strings.
* `optional`, `varArray` — optional items and lists.
* `Reads` — a reader takes exactly these bytes, whatever follows them.

## Main results

* `Reads.bind` — two items one behind the other.
* `reads_int64` — a number without a sign is read as one with a sign.
* `reads_varOpaque` — a byte string, its length before and its padding behind it.
-/

namespace Lib.Xdr

/-- A reader of an item: the item and the rest of the input. -/
abbrev Reader (α : Type) : Type := StateT (List UInt8) Option α

/-! ## Items -/

/-- The next bytes. -/
def next (n : ℕ) : Reader (List UInt8) := fun input => takeBytes n input

/-- An unsigned integer of four bytes. -/
def uint32 : Reader ℕ := do
  let bytes ← next 4
  pure (ofBe bytes)

/-- An unsigned integer of eight bytes. -/
def uint64 : Reader ℕ := do
  let bytes ← next 8
  pure (ofBe bytes)

/-- The value of 64 bits whose highest is the sign. -/
def signed64 (value : ℕ) : ℤ := if value < 2 ^ 63 then value else value - 2 ^ 64

/-- A signed integer of eight bytes. -/
def int64 : Reader ℤ := do
  let value ← uint64
  pure (signed64 value)

/-- How many bytes there are up to the next whole word. -/
def padLength (n : ℕ) : ℕ := (4 - n % 4) % 4

/-- The padding behind some bytes, which is of zeros. -/
def padding (n : ℕ) : Reader Unit := do
  let bytes ← next (padLength n)
  if bytes = List.replicate (padLength n) 0 then pure () else failure

/-- A byte string of a fixed length. -/
def fixedOpaque (n : ℕ) : Reader (FixedBytes n) := do
  let bytes ← next n
  padding n
  if h : bytes.length = n then pure ⟨bytes, h⟩ else failure

/-- A byte string of at most `bound` bytes. -/
def varOpaque (bound : ℕ) : Reader (List UInt8) := do
  let n ← uint32
  if n ≤ bound then do
    let bytes ← next n
    padding n
    pure bytes
  else failure

/-- An item that may be missing. -/
def optional {α : Type} (p : Reader α) : Reader (Option α) := do
  let present ← uint32
  if present = 0 then pure none
  else if present = 1 then some <$> p
  else failure

/-- As many items as asked for. -/
def count {α : Type} (p : Reader α) : ℕ → Reader (List α)
  | 0 => pure []
  | n + 1 => do
    let item ← p
    let items ← count p n
    pure (item :: items)

/-- A list of at most `bound` items. -/
def varArray {α : Type} (bound : ℕ) (p : Reader α) : Reader (List α) := do
  let n ← uint32
  if n ≤ bound then count p n else failure

/-! ## What is read -/

/-- **The reader takes exactly these bytes**, whatever follows them. -/
def Reads {α : Type} (p : Reader α) (bytes : List UInt8) (value : α) : Prop :=
  ∀ rest, p (bytes ++ rest) = some (value, rest)

section Reads

variable {α β : Type}

lemma reads_pure (value : α) : Reads (pure value : Reader α) [] value := fun _ => rfl

/-- Two items one behind the other. -/
lemma Reads.bind {p : Reader α} {f : α → Reader β} {bytes bytes' : List UInt8} {a : α} {b : β}
    (h : Reads p bytes a) (h' : Reads (f a) bytes' b) : Reads (p >>= f) (bytes ++ bytes') b := by
  intro rest
  show (p (bytes ++ bytes' ++ rest) >>= fun s => f s.1 s.2) = _
  rw [List.append_assoc, h]
  exact h' rest

/-- The last item of several. -/
lemma Reads.bind_pure {p : Reader α} {f : α → β} {bytes : List UInt8} {a : α}
    (h : Reads p bytes a) : Reads (p >>= fun a => pure (f a)) bytes (f a) := by
  have hboth := h.bind (f := fun a => pure (f a)) (reads_pure (f a))
  rwa [List.append_nil] at hboth

/-- The item is all there is. -/
lemma Reads.all {p : Reader α} {bytes : List UInt8} {a : α} (h : Reads p bytes a) :
    p bytes = some (a, []) := by
  have hall := h []
  rwa [List.append_nil] at hall

lemma reads_next {n : ℕ} {bytes : List UInt8} (h : bytes.length = n) :
    Reads (next n) bytes bytes := fun rest => takeBytes_append rest h

lemma reads_uint32 {value : ℕ} (h : value < 2 ^ 32) : Reads uint32 (beBytes 4 value) value := by
  have hread := (reads_next (length_beBytes 4 value)).bind_pure (f := ofBe)
  rwa [ofBe_beBytes_of_lt h] at hread

lemma reads_uint64 {value : ℕ} (h : value < 2 ^ 64) : Reads uint64 (beBytes 8 value) value := by
  have hread := (reads_next (length_beBytes 8 value)).bind_pure (f := ofBe)
  rwa [ofBe_beBytes_of_lt h] at hread

/-- A number without a sign is read as one with a sign. -/
lemma reads_int64 {value : ℕ} (h : value < 2 ^ 64) :
    Reads int64 (beBytes 8 value) (signed64 value) :=
  (reads_uint64 h).bind_pure

/-- The sign is that of the number where the number is small enough. -/
lemma signed64_eq_iff {value : ℕ} : signed64 value = value ↔ value < 2 ^ 63 := by
  rw [signed64]
  split <;> omega

/-- No number is read as that of another. -/
lemma signed64_inj {v v' : ℕ} (h : v < 2 ^ 64) (h' : v' < 2 ^ 64)
    (heq : signed64 v = signed64 v') : v = v' := by
  rw [signed64, signed64] at heq
  split at heq <;> split at heq <;> omega

lemma reads_padding (n : ℕ) : Reads (padding n) (List.replicate (padLength n) 0) () := by
  have hzeros : (List.replicate (padLength n) (0 : UInt8)).length = padLength n :=
    List.length_replicate
  rw [← List.append_nil (List.replicate (padLength n) (0 : UInt8))]
  refine (reads_next hzeros).bind ?_
  rw [if_pos rfl]
  exact reads_pure ()

/-- A byte string of whole words has no padding. -/
lemma reads_fixedOpaque {n : ℕ} (h : n % 4 = 0) (bytes : FixedBytes n) :
    Reads (fixedOpaque n) bytes.val bytes := by
  have hpad : padLength n = 0 := by
    rw [padLength]
    omega
  have hnone : Reads (padding n) [] () := by
    have hpadding := reads_padding n
    rwa [hpad, List.replicate_zero] at hpadding
  rw [← List.append_nil bytes.val]
  refine (reads_next bytes.property).bind (hnone.bind ?_)
  rw [dif_pos bytes.property]
  exact reads_pure bytes

/-- A byte string, its length before and its padding behind it. -/
lemma reads_varOpaque {bound : ℕ} {bytes : List UInt8} (hbound : bytes.length ≤ bound)
    (h : bytes.length < 2 ^ 32) :
    Reads (varOpaque bound) (beBytes 4 bytes.length ++
      (bytes ++ List.replicate (padLength bytes.length) 0)) bytes := by
  refine (reads_uint32 h).bind ?_
  rw [if_pos hbound]
  exact (reads_next rfl).bind (reads_padding _).bind_pure

lemma reads_optional_none (p : Reader α) : Reads (optional p) (beBytes 4 0) none := by
  have hzero : Reads uint32 (beBytes 4 0) 0 := reads_uint32 (by decide)
  rw [← List.append_nil (beBytes 4 0)]
  refine hzero.bind ?_
  rw [if_pos rfl]
  exact reads_pure none

/-- A list of one item. -/
lemma reads_varArray_one {bound : ℕ} (hbound : 1 ≤ bound) {p : Reader α} {bytes : List UInt8}
    {item : α} (h : Reads p bytes item) :
    Reads (varArray bound p) (beBytes 4 1 ++ bytes) [item] := by
  refine (reads_uint32 (by decide)).bind ?_
  rw [if_pos hbound]
  exact h.bind_pure (f := fun item => [item])

end Reads

end Lib.Xdr
