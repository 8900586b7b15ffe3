import Mathlib.Data.Finset.Card
import Mathlib.Data.Nat.Size
import GemCore.Lib.Bytes
import GemCore.Lib.Result

/-!
# TVM cells

Cells of the TON virtual machine (`gem_ton/src/tvm/cell.rs`): up to 1023 bits of data and up to
four references, with the depth and the hash of the tree below. SHA-256 and CRC-32C are
third-party code, the fields of `HashLib`.

## Main definitions

* `Cell`, `Cell.tryNew` — a cell, and the constructor that checks it.
* `unpadCellBits` — data and bit length from padded bytes.
* `WellFormed` — every cell of a tree comes from `tryNew` and has zero padding.
* `CollisionFree`, `Separated` — SHA-256 separates the cells of a tree, or of several.

## Main results

* `unpadCellBits_serializedBits` — the padding of a cell's bits can be undone.
* `Separated.eq_of_hash_eq` — cells with equal hashes are equal.
-/

namespace GemCore.Ton

/-- `TvmError`. -/
structure TvmError where
  message : String
  deriving DecidableEq

/-- `invalid`. -/
def invalid (message : String) : TvmError := ⟨message⟩

/-- The third-party hash functions. -/
structure HashLib where
  /-- `sha256`. -/
  sha256 : List UInt8 → List UInt8
  /-- `CRC32C.checksum`. -/
  crc32c : List UInt8 → UInt32
  sha256_length : ∀ bytes, (sha256 bytes).length = 32

/-- `usize::div_ceil` by eight: the bytes that hold a number of bits. -/
def bytesFor (bitLen : ℕ) : ℕ := (bitLen + 7) / 8

/-- The byte `1 << shift`. -/
def bitMask (shift : ℕ) : UInt8 := UInt8.ofNat (2 ^ shift)

/-! ## Cells -/

/-- `Cell`. -/
structure Cell where
  data : List UInt8
  bitLen : ℕ
  references : List Cell
  depth : ℕ
  hash : List UInt8

/-- `MAX_CELL_BITS`. -/
def maxCellBits : ℕ := 1023

/-- `MAX_CELL_REFERENCES`. -/
def maxCellReferences : ℕ := 4

/-- The byte that encodes a bit length: twice the number of bytes, less one if the last byte is
incomplete. -/
def descriptorByte (bitLen : ℕ) : UInt8 :=
  UInt8.ofNat (bytesFor bitLen * 2 - if bitLen % 8 = 0 then 0 else 1)

/-- `Cell::bits_descriptor`. -/
def bitsDescriptor (bitLen : ℕ) : Option UInt8 :=
  if bytesFor bitLen > 128 then none else some (descriptorByte bitLen)

/-- `Cell::serialized_bits`: an incomplete last byte ends with a marker bit. -/
def serializedBits (data : List UInt8) (bitLen : ℕ) : List UInt8 :=
  let serialized := data.take (bytesFor bitLen)
  if bitLen % 8 = 0 then serialized
  else serialized.modify (serialized.length - 1) (· ||| bitMask (8 - bitLen % 8 - 1))

/-- The depth of a cell, a `u16`: one more than the deepest reference. -/
def depthOf (references : List Cell) : Option ℕ :=
  if references.isEmpty then some 0
  else
    let depth := (references.map Cell.depth).foldr max 0 + 1
    if depth < 2 ^ 16 then some depth else none

/-- The bytes that are hashed. -/
def cellRepr (descriptor : UInt8) (data : List UInt8) (bitLen : ℕ) (references : List Cell) :
    List UInt8 :=
  [UInt8.ofNat references.length, descriptor] ++ serializedBits data bitLen ++
    references.flatMap (fun r => Lib.beBytes 2 r.depth) ++ references.flatMap Cell.hash

variable (lib : HashLib)

/-- `Cell::try_new`. -/
def Cell.tryNew (data : List UInt8) (bitLen : ℕ) (references : List Cell) : Option Cell :=
  if bitLen > maxCellBits ∨ references.length > maxCellReferences ∨
      data.length ≠ bytesFor bitLen then none
  else do
    let depth ← depthOf references
    let descriptor ← bitsDescriptor bitLen
    some ⟨data, bitLen, references, depth,
      lib.sha256 (cellRepr descriptor data bitLen references)⟩

/-- `Cell::new`. -/
def Cell.new (data : List UInt8) (bitLen : ℕ) (references : List Cell) :
    Except TvmError Cell :=
  Lib.okOr (Cell.tryNew lib data bitLen references) ⟨"invalid cell"⟩

/-- Induction over a tree of cells. -/
lemma Cell.induction {P : Cell → Prop} (h : ∀ c : Cell, (∀ r ∈ c.references, P r) → P c)
    (c : Cell) : P c :=
  h c fun r _ => Cell.induction h r
termination_by sizeOf c
decreasing_by
  rename_i hr
  have := List.sizeOf_lt_of_mem hr
  cases c
  simp only [Cell.mk.sizeOf_spec] at this ⊢
  omega

mutual

/-- The cells of a tree, each as often as it is referenced. -/
def Cell.cells : Cell → List Cell
  | ⟨data, bitLen, references, depth, hash⟩ =>
    ⟨data, bitLen, references, depth, hash⟩ :: cellsOf references

/-- The cells of a list of trees. -/
def cellsOf : List Cell → List Cell
  | [] => []
  | c :: cs => c.cells ++ cellsOf cs

end

lemma Cell.cells_eq (c : Cell) : c.cells = c :: cellsOf c.references := by
  cases c
  rfl

lemma mem_cellsOf {x : Cell} {l : List Cell} : x ∈ cellsOf l ↔ ∃ c ∈ l, x ∈ c.cells := by
  induction l with
  | nil => simp [cellsOf]
  | cons c cs ih => simp [cellsOf, ih]

lemma Cell.mem_cells {x c : Cell} : x ∈ c.cells ↔ x = c ∨ ∃ r ∈ c.references, x ∈ r.cells := by
  rw [Cell.cells_eq, List.mem_cons, mem_cellsOf]

lemma Cell.self_mem_cells (c : Cell) : c ∈ c.cells := Cell.mem_cells.mpr (.inl rfl)

/-- The references of a cell of a tree are cells of the tree. -/
lemma Cell.references_mem_cells {root c r : Cell} (hc : c ∈ root.cells)
    (hr : r ∈ c.references) : r ∈ root.cells := by
  induction root using Cell.induction with
  | h root ih =>
    rcases Cell.mem_cells.mp hc with rfl | ⟨s, hs, hcs⟩
    · exact Cell.mem_cells.mpr (.inr ⟨r, hr, r.self_mem_cells⟩)
    · exact Cell.mem_cells.mpr (.inr ⟨s, hs, ih s hs hcs⟩)

/-! ## Padding -/

/-- The bits behind the last one are zero. -/
def ZeroPadded (data : List UInt8) (bitLen : ℕ) : Prop :=
  ∀ b ∈ data.getLast?, b.toNat % 2 ^ (8 * data.length - bitLen) = 0

/-- `u8::trailing_zeros`. -/
def trailingZeros (b : UInt8) : ℕ := ((List.range 8).find? fun i => b.toNat.testBit i).getD 8

/-- `RawCell::unpad_cell_bits`. -/
def unpadCellBits (data : List UInt8) (fullBytes : Bool) : Option (List UInt8 × ℕ) :=
  if data.isEmpty then some (data, 0)
  else if fullBytes then some (data, data.length * 8)
  else
    let zeros := trailingZeros ((data.getLast?).getD 0)
    if zeros ≥ 8 then none
    else some (data.modify (data.length - 1) (· &&& ~~~(bitMask zeros)),
      data.length * 8 - (zeros + 1))

/-- The marker bit is the lowest bit of the last byte, and clearing it gives the byte back. -/
theorem marker_byte (b : UInt8) (r : ℕ) (hr : 0 < r) (hr' : r < 8)
    (h : b.toNat % 2 ^ (8 - r) = 0) :
    trailingZeros (b ||| bitMask (8 - r - 1)) = 8 - r - 1 ∧
      (b ||| bitMask (8 - r - 1)) &&& ~~~(bitMask (8 - r - 1)) = b := by
  have hall : ∀ r : Fin 8, 0 < r.val → ∀ n : Fin 256, n.val % 2 ^ (8 - r.val) = 0 →
      trailingZeros (UInt8.ofNat n.val ||| bitMask (8 - r.val - 1)) = 8 - r.val - 1 ∧
        (UInt8.ofNat n.val ||| bitMask (8 - r.val - 1)) &&& ~~~(bitMask (8 - r.val - 1)) =
          UInt8.ofNat n.val := by
    decide +kernel
  have hb := hall ⟨r, hr'⟩ hr ⟨b.toNat, b.toNat_lt⟩ h
  simpa using hb

lemma modify_concat (f : UInt8 → UInt8) (init : List UInt8) (x : UInt8) :
    (init ++ [x]).modify init.length f = init ++ [f x] := by
  induction init with
  | nil => rfl
  | cons y init ih => simp [ih]

/-- **The padding can be undone**: data and bit length come back from the padded bytes and the
parity of the descriptor. -/
theorem unpadCellBits_serializedBits {data : List UInt8} {bitLen : ℕ}
    (hlen : data.length = bytesFor bitLen) (hpad : ZeroPadded data bitLen) :
    unpadCellBits (serializedBits data bitLen) (bitLen % 8 = 0) = some (data, bitLen) := by
  unfold bytesFor at hlen
  have htake : data.take (bytesFor bitLen) = data := by
    unfold bytesFor
    rw [← hlen, List.take_length]
  unfold serializedBits
  rw [htake]
  by_cases hfull : bitLen % 8 = 0
  · by_cases hnil : data = []
    · subst hnil
      simp only [List.length_nil] at hlen
      have hzero : bitLen = 0 := by omega
      simp [unpadCellBits, hzero]
    · simp only [hfull, if_true, decide_true, unpadCellBits, List.isEmpty_iff, hnil, if_false]
      rw [Option.some.injEq, Prod.mk.injEq]
      exact ⟨rfl, by omega⟩
  · obtain ⟨init, b, rfl⟩ : ∃ init b, data = init ++ [b] := by
      refine ⟨data.dropLast, data.getLast ?_, (List.dropLast_append_getLast _).symm⟩
      rintro rfl
      simp only [List.length_nil] at hlen
      omega
    simp only [List.length_append, List.length_singleton] at hlen
    have hb : b.toNat % 2 ^ (8 - bitLen % 8) = 0 := by
      have hmem := hpad b (by simp)
      have hexp : 8 * (init ++ [b]).length - bitLen = 8 - bitLen % 8 := by
        simp only [List.length_append, List.length_singleton]
        omega
      rwa [hexp] at hmem
    obtain ⟨hzeros, hclear⟩ := marker_byte b (bitLen % 8) (by omega) (by omega) hb
    simp only [hfull, if_false, decide_false, List.length_append, List.length_singleton,
      Nat.add_sub_cancel, modify_concat, unpadCellBits, List.isEmpty_iff, List.append_eq_nil_iff,
      List.cons_ne_nil, and_false, List.getLast?_append, List.getLast?_singleton,
      Option.some_or, Option.getD_some, hzeros, Bool.false_eq_true]
    rw [if_neg (by omega), hclear, Option.some.injEq, Prod.mk.injEq]
    exact ⟨rfl, by omega⟩

/-- Clearing the lowest bit of a byte that is set leaves zeros up to it. -/
lemma cleared_byte (b : UInt8) (h : trailingZeros b < 8) :
    (b &&& ~~~(bitMask (trailingZeros b))).toNat % 2 ^ (trailingZeros b + 1) = 0 := by
  have hall : ∀ n : Fin 256, trailingZeros (UInt8.ofNat n.val) < 8 →
      (UInt8.ofNat n.val &&& ~~~(bitMask (trailingZeros (UInt8.ofNat n.val)))).toNat %
        2 ^ (trailingZeros (UInt8.ofNat n.val) + 1) = 0 := by
    decide +kernel
  have hb := hall ⟨b.toNat, b.toNat_lt⟩
  rw [UInt8.ofNat_toNat] at hb
  exact hb h

/-- **What is unpadded** has zero padding. -/
theorem zeroPadded_of_unpadCellBits {bytes data : List UInt8} {fullBytes : Bool} {bitLen : ℕ}
    (h : unpadCellBits bytes fullBytes = some (data, bitLen)) : ZeroPadded data bitLen := by
  rcases bytes.eq_nil_or_concat with rfl | ⟨init, b, rfl⟩
  · cases h
    exact fun b hb => nomatch hb
  · simp only [unpadCellBits, List.isEmpty_iff, List.concat_eq_append,
      List.append_eq_nil_iff, List.cons_ne_nil, and_false, if_false, List.getLast?_append,
      List.getLast?_singleton, Option.some_or, Option.getD_some, List.length_append,
      List.length_singleton, Nat.add_sub_cancel, modify_concat] at h
    split_ifs at h with hfull hzeros
    · cases h
      intro c hc
      have hexp : 8 * (init ++ [b]).length - (init.length + 1) * 8 = 0 := by
        rw [List.length_append, List.length_singleton]
        omega
      rw [hexp, pow_zero, Nat.mod_one]
    · cases h
      intro c hc
      have hexp : 8 * (init ++ [b &&& ~~~(bitMask (trailingZeros b))]).length -
          ((init.length + 1) * 8 - (trailingZeros b + 1)) = trailingZeros b + 1 := by
        rw [List.length_append, List.length_singleton]
        omega
      rw [List.getLast?_append, List.getLast?_singleton, Option.some_or] at hc
      obtain rfl := Option.some.inj hc
      rw [hexp]
      exact cleared_byte b (Nat.lt_of_not_le hzeros)

/-- Padding does not change the number of bytes. -/
lemma length_serializedBits {data : List UInt8} {bitLen : ℕ}
    (hlen : data.length = bytesFor bitLen) :
    (serializedBits data bitLen).length = bytesFor bitLen := by
  unfold serializedBits
  split_ifs <;> simp [hlen]

/-! ## Well-formed trees -/

/-- Every cell of the tree is what `Cell::try_new` makes of its parts, with zero padding. -/
inductive WellFormed : Cell → Prop
  | mk (c : Cell) : (∀ r ∈ c.references, WellFormed r) → ZeroPadded c.data c.bitLen →
      Cell.tryNew lib c.data c.bitLen c.references = some c → WellFormed c

/-- The bytes whose hash a cell carries. -/
def Cell.repr (c : Cell) : List UInt8 :=
  cellRepr (descriptorByte c.bitLen) c.data c.bitLen c.references

/-- SHA-256 separates the cells of a tree. -/
def CollisionFree (root : Cell) : Prop :=
  ∀ a ∈ root.cells, ∀ b ∈ root.cells, lib.sha256 a.repr = lib.sha256 b.repr → a.repr = b.repr

/-- What `Cell::try_new` checks and computes. -/
lemma Cell.tryNew_eq_some {data : List UInt8} {bitLen : ℕ} {references : List Cell} {c : Cell}
    (h : Cell.tryNew lib data bitLen references = some c) :
    bitLen ≤ maxCellBits ∧ references.length ≤ maxCellReferences ∧
      data.length = bytesFor bitLen ∧ depthOf references = some c.depth ∧
      c.data = data ∧ c.bitLen = bitLen ∧ c.references = references ∧
      c.hash = lib.sha256 c.repr := by
  unfold Cell.tryNew at h
  split_ifs at h with hguard
  push Not at hguard
  simp only [Option.bind_eq_bind, Option.bind_eq_some_iff] at h
  obtain ⟨depth, hdepth, descriptor, hdescriptor, h⟩ := h
  obtain rfl := Option.some.inj h
  unfold bitsDescriptor at hdescriptor
  split_ifs at hdescriptor
  obtain rfl := Option.some.inj hdescriptor
  exact ⟨hguard.1, hguard.2.1, hguard.2.2, hdepth, rfl, rfl, rfl, rfl⟩

lemma depth_le_foldr {l : List Cell} {r : Cell} (hr : r ∈ l) :
    r.depth ≤ (l.map Cell.depth).foldr max 0 := by
  induction l with
  | nil => cases hr
  | cons s l ih =>
    simp only [List.map_cons, List.foldr_cons]
    rcases List.mem_cons.mp hr with rfl | hr
    · exact le_max_left _ _
    · exact (ih hr).trans (le_max_right _ _)

/-- The references of a cell that is made are less deep. -/
lemma Cell.depth_lt_of_tryNew {c r : Cell}
    (h : Cell.tryNew lib c.data c.bitLen c.references = some c) (hr : r ∈ c.references) :
    r.depth < c.depth := by
  have hdepth := (Cell.tryNew_eq_some lib h).2.2.2.1
  have hle := depth_le_foldr hr
  unfold depthOf at hdepth
  have hne : c.references.isEmpty = false := by
    rw [List.isEmpty_eq_false_iff]
    exact List.ne_nil_of_mem hr
  rw [if_neg (by simp [hne])] at hdepth
  dsimp only at hdepth
  split_ifs at hdepth
  have := Option.some.inj hdepth
  omega

namespace WellFormed

variable {lib} {c : Cell}

lemma references (h : WellFormed lib c) : ∀ r ∈ c.references, WellFormed lib r := by
  cases h
  assumption

lemma zeroPadded (h : WellFormed lib c) : ZeroPadded c.data c.bitLen := by
  cases h
  assumption

lemma tryNew_eq (h : WellFormed lib c) :
    Cell.tryNew lib c.data c.bitLen c.references = some c := by
  cases h
  assumption

lemma bitLen_le (h : WellFormed lib c) : c.bitLen ≤ 1023 :=
  (Cell.tryNew_eq_some lib h.tryNew_eq).1

lemma length_references (h : WellFormed lib c) : c.references.length ≤ 4 :=
  (Cell.tryNew_eq_some lib h.tryNew_eq).2.1

lemma length_data (h : WellFormed lib c) : c.data.length = bytesFor c.bitLen :=
  (Cell.tryNew_eq_some lib h.tryNew_eq).2.2.1

lemma hash_eq (h : WellFormed lib c) : c.hash = lib.sha256 c.repr :=
  (Cell.tryNew_eq_some lib h.tryNew_eq).2.2.2.2.2.2.2

lemma length_hash (h : WellFormed lib c) : c.hash.length = 32 := by
  rw [h.hash_eq]
  exact lib.sha256_length _

/-- References are less deep. -/
lemma depth_lt (h : WellFormed lib c) {r : Cell} (hr : r ∈ c.references) :
    r.depth < c.depth := Cell.depth_lt_of_tryNew lib h.tryNew_eq hr

/-- Every cell of a well-formed tree is well formed. -/
lemma of_mem_cells {root : Cell} (h : WellFormed lib root) (hc : c ∈ root.cells) :
    WellFormed lib c := by
  induction root using Cell.induction with
  | h root ih =>
    rcases Cell.mem_cells.mp hc with rfl | ⟨r, hr, hcr⟩
    · exact h
    · exact ih r hr (h.references r hr) hcr

end WellFormed

/-- The descriptor byte determines the number of bytes and whether the last is complete. -/
theorem descriptorByte_inj {m n : ℕ} (hm : m ≤ 1023) (hn : n ≤ 1023)
    (h : descriptorByte m = descriptorByte n) :
    bytesFor m = bytesFor n ∧ (m % 8 = 0 ↔ n % 8 = 0) := by
  have hnat := congrArg UInt8.toNat h
  simp only [descriptorByte, bytesFor, UInt8.toNat_ofNat'] at hnat ⊢
  split_ifs at hnat <;> omega

/-- Blocks of one length that are equal when concatenated are equal one by one. -/
theorem map_eq_of_flatMap_eq {α : Type} {f : α → List UInt8} {n : ℕ} :
    ∀ {l l' : List α}, (∀ x ∈ l, (f x).length = n) → (∀ x ∈ l', (f x).length = n) →
      l.length = l'.length → l.flatMap f = l'.flatMap f → l.map f = l'.map f := by
  intro l
  induction l with
  | nil =>
    intro l' _ _ hlen _
    simp [List.eq_nil_of_length_eq_zero hlen.symm]
  | cons x l ih =>
    intro l' hl hl' hlen heq
    cases l' with
    | nil => cases hlen
    | cons y l' =>
      simp only [List.flatMap_cons] at heq
      have hxy : (f x).length = (f y).length := by
        rw [hl x List.mem_cons_self, hl' y List.mem_cons_self]
      obtain ⟨hhead, htail⟩ := List.append_inj heq hxy
      rw [List.map_cons, List.map_cons, hhead, ih (fun z hz => hl z (List.mem_cons_of_mem _ hz))
        (fun z hz => hl' z (List.mem_cons_of_mem _ hz)) (by simpa using hlen) htail]

/-- The hashed bytes of two cells that are made, part by part. -/
lemma Cell.repr_parts {a b : Cell} (ha : Cell.tryNew lib a.data a.bitLen a.references = some a)
    (hb : Cell.tryNew lib b.data b.bitLen b.references = some b)
    (hra : ∀ r ∈ a.references, r.hash.length = 32) (hrb : ∀ r ∈ b.references, r.hash.length = 32)
    (h : a.repr = b.repr) :
    (a.bitLen % 8 = 0 ↔ b.bitLen % 8 = 0) ∧
      serializedBits a.data a.bitLen = serializedBits b.data b.bitLen ∧
      a.references.map Cell.hash = b.references.map Cell.hash := by
  obtain ⟨ha1023, ha4, halen, -⟩ := Cell.tryNew_eq_some lib ha
  obtain ⟨hb1023, hb4, hblen, -⟩ := Cell.tryNew_eq_some lib hb
  unfold maxCellReferences at ha4 hb4
  unfold Cell.repr cellRepr at h
  simp only [List.cons_append, List.nil_append, List.cons.injEq] at h
  obtain ⟨hcount, hdescriptor, h⟩ := h
  have hrefs : a.references.length = b.references.length := by
    have hnat := congrArg UInt8.toNat hcount
    simp only [UInt8.toNat_ofNat'] at hnat
    omega
  obtain ⟨hbytes, hfull⟩ := descriptorByte_inj ha1023 hb1023 hdescriptor
  have hbits : (serializedBits a.data a.bitLen).length =
      (serializedBits b.data b.bitLen).length := by
    rw [length_serializedBits halen, length_serializedBits hblen, hbytes]
  rw [List.append_assoc, List.append_assoc] at h
  obtain ⟨hserialized, h⟩ := List.append_inj h hbits
  have hdepths : (a.references.flatMap fun r => Lib.beBytes 2 r.depth).length =
      (b.references.flatMap fun r => Lib.beBytes 2 r.depth).length := by
    simp [List.length_flatMap, hrefs]
  obtain ⟨-, hhashes⟩ := List.append_inj h hdepths
  exact ⟨hfull, hserialized, map_eq_of_flatMap_eq hra hrb hrefs hhashes⟩

/-- The hashed bytes determine data, bit length and the hashes of the references. -/
theorem Cell.repr_inj {a b : Cell} (ha : WellFormed lib a) (hb : WellFormed lib b)
    (h : a.repr = b.repr) :
    a.data = b.data ∧ a.bitLen = b.bitLen ∧
      a.references.map Cell.hash = b.references.map Cell.hash := by
  obtain ⟨hfull, hserialized, hhashes⟩ := Cell.repr_parts lib ha.tryNew_eq hb.tryNew_eq
    (fun r hr => (ha.references r hr).length_hash) (fun r hr => (hb.references r hr).length_hash) h
  have hunpad : some (a.data, a.bitLen) = some (b.data, b.bitLen) := by
    rw [← unpadCellBits_serializedBits ha.length_data ha.zeroPadded,
      ← unpadCellBits_serializedBits hb.length_data hb.zeroPadded, hserialized]
    simp only [hfull]
  obtain ⟨hdata, hlen⟩ := Prod.mk.inj (Option.some.inj hunpad)
  exact ⟨hdata, hlen, hhashes⟩

/-- Trees of well-formed cells that SHA-256 separates. -/
structure Separated (roots : List Cell) : Prop where
  wellFormed : ∀ root ∈ roots, WellFormed lib root
  free : ∀ a ∈ cellsOf roots, ∀ b ∈ cellsOf roots,
    lib.sha256 a.repr = lib.sha256 b.repr → a.repr = b.repr

/-- The largest depth of some trees. -/
def maxDepth (roots : List Cell) : ℕ := (roots.map Cell.depth).foldr max 0

lemma maxDepth_singleton (root : Cell) : maxDepth [root] = root.depth := Nat.max_zero _

lemma cellsOf_singleton (root : Cell) : cellsOf [root] = root.cells := by
  rw [cellsOf, cellsOf, List.append_nil]

/-- The references of a cell of some trees are cells of the trees. -/
lemma references_mem_cellsOf {roots : List Cell} {c r : Cell} (hc : c ∈ cellsOf roots)
    (hr : r ∈ c.references) : r ∈ cellsOf roots := by
  obtain ⟨root, hroot, hcr⟩ := mem_cellsOf.mp hc
  exact mem_cellsOf.mpr ⟨root, hroot, Cell.references_mem_cells hcr hr⟩

/-- No cell of a tree is deeper than its root. -/
lemma WellFormed.depth_le {root c : Cell} (h : WellFormed lib root) (hc : c ∈ root.cells) :
    c.depth ≤ root.depth := by
  induction root using Cell.induction with
  | h root ih =>
    rcases Cell.mem_cells.mp hc with rfl | ⟨r, hr, hcr⟩
    · exact le_rfl
    · have hle := ih r hr (h.references r hr) hcr
      have hlt := h.depth_lt hr
      omega

namespace Separated

variable {lib} {roots : List Cell}

/-- One tree whose cells are separated. -/
lemma single {root : Cell} (hroot : WellFormed lib root) (hfree : CollisionFree lib root) :
    Separated lib [root] := by
  refine ⟨by simpa using hroot, ?_⟩
  rwa [cellsOf_singleton]

/-- Every cell of the trees is well formed. -/
lemma of_mem (h : Separated lib roots) {c : Cell} (hc : c ∈ cellsOf roots) :
    WellFormed lib c := by
  obtain ⟨root, hroot, hcr⟩ := mem_cellsOf.mp hc
  exact (h.wellFormed root hroot).of_mem_cells hcr

/-- **Cells with equal hashes are equal**, among the cells of trees that SHA-256 separates.

**Proof sketch.** Induction over one of the cells. Equal hashes come from equal bytes, and these
determine the data and the hashes of the references (`Cell.repr_inj`), which are equal cells by
induction. Both cells are then what `Cell::try_new` makes of the same parts. -/
theorem eq_of_hash_eq (h : Separated lib roots) :
    ∀ a b : Cell, a ∈ cellsOf roots → b ∈ cellsOf roots → a.hash = b.hash → a = b := by
  intro a
  induction a using Cell.induction with
  | h a ih =>
    intro b ha hb hhash
    have hwa := h.of_mem ha
    have hwb := h.of_mem hb
    rw [hwa.hash_eq, hwb.hash_eq] at hhash
    obtain ⟨hdata, hlen, hhashes⟩ := Cell.repr_inj lib hwa hwb (h.free a ha b hb hhash)
    have hrefs : a.references = b.references := by
      have hlength : a.references.length = b.references.length := by
        simpa using congrArg List.length hhashes
      apply List.ext_getElem hlength
      intro i hi hi'
      apply ih _ (List.getElem_mem hi) _ (references_mem_cellsOf ha (List.getElem_mem hi))
        (references_mem_cellsOf hb (List.getElem_mem hi'))
      have hget := congrArg (fun l => l[i]?) hhashes
      simpa [List.getElem?_eq_getElem hi, List.getElem?_eq_getElem hi'] using hget
    have hmade := hwa.tryNew_eq
    rw [hdata, hlen, hrefs, hwb.tryNew_eq] at hmade
    exact (Option.some.inj hmade).symm

end Separated

end GemCore.Ton
