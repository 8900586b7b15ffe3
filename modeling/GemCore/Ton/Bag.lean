import Mathlib.Data.List.Sort
import GemCore.Lib.Numbering
import GemCore.Ton.Reader

/-!
# Bags of cells

The byte format for a tree of cells (`gem_ton/src/tvm/bag.rs`, `header.rs`, `indexed_cell.rs`,
`raw_cell.rs`). Cells with equal hashes are written once; a cell refers to others by their
positions, which must be larger than its own. The positions are assigned level by level and then
repaired, pass by pass, until every reference points forward.

Both loops of the writer take a bound on the number of rounds and return `none` when it is
reached.

## Main definitions

* `IndexedCells`, `buildIndex` — the cells by hash with their numbers.
* `RawCell` — a cell whose references are positions.
* `BocHeader` — the header.
* `BagOfCells.serialize`, `BagOfCells.parse`.
-/

namespace GemCore.Ton

open Lib

/-- A hash, as its bytes. -/
abbrev Hash := List UInt8

/-! ## The index -/

/-- `IndexedCells`, an ordered map from hashes to cells with their index: the entries in the
order of the hashes, and the indices with the next unused one. -/
structure IndexedCells where
  cells : List (Hash × Cell)
  numbering : Lib.Numbering Hash

namespace IndexedCells

/-- The empty map. -/
def empty : IndexedCells := ⟨[], ⟨fun _ => 0, 0⟩⟩

/-- `BTreeMap::keys`. -/
def keys (s : IndexedCells) : List Hash := s.cells.map Prod.fst

/-- `BTreeMap::contains_key`. -/
def contains (s : IndexedCells) (hash : Hash) : Bool := hash ∈ s.keys

/-- The cell of a hash. -/
def get (s : IndexedCells) (hash : Hash) : Option Cell := s.cells.lookup hash

/-- The order of the entries. -/
def entryBefore (a b : Hash × Cell) : Prop := ¬ b.1 < a.1

instance : DecidableRel entryBefore := fun _ _ => inferInstanceAs (Decidable (¬ _))

/-- Insert a cell under its hash with the next index. -/
def insert (s : IndexedCells) (cell : Cell) : IndexedCells :=
  ⟨s.cells.orderedInsert entryBefore (cell.hash, cell), s.numbering.renew cell.hash⟩

/-- The hashes a cell refers to, as far as they are in the map. -/
def edges (s : IndexedCells) (hash : Hash) : List Hash :=
  match s.get hash with
  | some cell => (cell.references.map Cell.hash).filter (s.contains ·)
  | none => []

end IndexedCells

/-- The body of the loop over a level: a new cell is inserted, and its references join the next
level. -/
def indexCell (s : IndexedCells × List Cell) (cell : Cell) : IndexedCells × List Cell :=
  if s.1.contains cell.hash then s else (s.1.insert cell, s.2 ++ cell.references)

/-- The loop over the levels of `build_index`. -/
def indexFrontier : ℕ → List Cell → IndexedCells → Option IndexedCells
  | _, [], s => some s
  | 0, _ :: _, _ => none
  | fuel + 1, cell :: frontier, s =>
    let (s', next) := (cell :: frontier).foldl indexCell (s, [])
    indexFrontier fuel next s'

/-- `build_index`. -/
def buildIndex (fuel : ℕ) (roots : List Cell) : Option IndexedCells := do
  let s ← indexFrontier fuel roots .empty
  let numbering ← Lib.Numbering.repair s.edges s.keys fuel s.numbering
  some { s with numbering }

/-- `ordered_indexed_cells`: the entries by index; the index of each is then its position. -/
def orderedIndexedCells (s : IndexedCells) : List (Hash × Cell) :=
  s.cells.insertionSort fun a b => s.numbering.index a.1 ≤ s.numbering.index b.1

/-- The index of a hash after `ordered_indexed_cells`. -/
def realIndex (ordered : List (Hash × Cell)) (hash : Hash) : Option ℕ :=
  ordered.findIdx? fun entry => entry.1 = hash

/-! ## Raw cells -/

variable (width : PointerWidth)

/-- `RawCell`. -/
structure RawCell where
  data : List UInt8
  bitLen : ℕ
  references : List ℕ
  deriving DecidableEq

/-- `write_var_uint`: big-endian in a fixed number of bytes. -/
def writeVarUint (value size : ℕ) : List UInt8 := beBytes size value

namespace RawCell

/-- `RawCell::from_cell`. -/
def fromCell (ordered : List (Hash × Cell)) (cell : Cell) : Except TvmError RawCell := do
  let references ← tryMap
    (fun reference => okOr (realIndex ordered reference.hash)
      (invalid "missing referenced cell")) cell.references
  .ok ⟨cell.data, cell.bitLen, references⟩

/-- `RawCell::size`. -/
def size (raw : RawCell) (refSize : ℕ) : ℕ :=
  2 + bytesFor raw.bitLen + raw.references.length * refSize

/-- `RawCell::write`. -/
def write (refSize : ℕ) (raw : RawCell) : List UInt8 :=
  [UInt8.ofNat raw.references.length, descriptorByte raw.bitLen] ++
    serializedBits raw.data raw.bitLen ++
    raw.references.flatMap fun reference => writeVarUint reference refSize

/-- `RawCell::try_parse`; `None` is an error that `RawCell::parse` replaces. -/
def tryParse (refSize : ℕ) : Read RawCell := do
  let refsDescriptor ← readU8
  let bitsDescriptor ← readU8
  let refCount := (refsDescriptor &&& 0b111).toNat
  if refsDescriptor &&& 0b1000 ≠ 0 ∨ refsDescriptor &&& 0b10000 ≠ 0 ∨ refsDescriptor >>> 5 ≠ 0 then
    throw (invalid "unsupported cell")
  else do
    let dataSize := ((bitsDescriptor >>> 1) + (bitsDescriptor &&& 1)).toNat
    let fullBytes := bitsDescriptor &&& 1 = 0
    let bytes ← readBytes width dataSize
    match unpadCellBits bytes fullBytes with
    | none => throw (invalid "missing marker bit")
    | some (data, bitLen) => do
      let references ← readMany (readVarUint width refSize) refCount
      pure ⟨data, bitLen, references⟩

/-- `RawCell::parse`. -/
def parse (refSize : ℕ) : Read RawCell := orInvalid "invalid BoC cell" (tryParse width refSize)

end RawCell

/-! ## The header -/

/-- `BOC_MAGIC`. -/
def bocMagic : ℕ := 0xb5ee9c72

/-- `MAX_CELLS`. -/
def maxCells : ℕ := 4096

/-- `BocHeader`. -/
structure BocHeader where
  hasIdx : Bool
  hasCrc32c : Bool
  refBytes : ℕ
  offBytes : ℕ
  cellsCount : ℕ
  rootsCount : ℕ
  totalCellsSize : ℕ

namespace BocHeader

/-- The fields of a header as they are read, before the counts are compared. -/
structure Fields where
  flags : UInt8
  refBytes : ℕ
  offBytes : ℕ
  cellsCount : ℕ
  rootsCount : ℕ
  absentCount : ℕ
  totalCellsSize : ℕ

/-- The reads of `BocHeader::try_parse`; an error is `None`. -/
def readFields : Read Fields := do
  let magic ← readU32
  if magic ≠ bocMagic then throw (invalid "magic")
  else do
    let flags ← readU8
    let refBytes := (flags &&& 0b111).toNat
    if refBytes = 0 ∨ refBytes > 4 then throw (invalid "reference size")
    else do
      let offset ← readU8
      let offBytes := offset.toNat
      if offBytes = 0 ∨ offBytes > 8 then throw (invalid "offset size")
      else do
        let cellsCount ← readVarUint width refBytes
        let rootsCount ← readVarUint width refBytes
        let absentCount ← readVarUint width refBytes
        let totalCellsSize ← readVarUint width offBytes
        pure ⟨flags, refBytes, offBytes, cellsCount, rootsCount, absentCount, totalCellsSize⟩

namespace Fields

/-- The cells and the roots are counted right. -/
def validRoots (fields : Fields) : Bool :=
  !(fields.cellsCount = 0 ∨ fields.cellsCount > maxCells) &&
    !(fields.rootsCount = 0 ∨ fields.rootsCount > fields.cellsCount)

/-- The counts are compared with each other. Their sum wraps in a release build. -/
def validCounts (fields : Fields) : Bool :=
  fields.validRoots &&
    !((fields.rootsCount + fields.absentCount) % width.usize > fields.cellsCount)

/-- The sum of the counts does not overflow, if it is calculated. -/
def sumFits (fields : Fields) : Bool :=
  !fields.validRoots || decide (fields.rootsCount + fields.absentCount < width.usize)

/-- The header of the fields. -/
def header (fields : Fields) : BocHeader where
  hasIdx := fields.flags &&& 0b10000000 ≠ 0
  hasCrc32c := fields.flags &&& 0b01000000 ≠ 0
  refBytes := fields.refBytes
  offBytes := fields.offBytes
  cellsCount := fields.cellsCount
  rootsCount := fields.rootsCount
  totalCellsSize := fields.totalCellsSize

end Fields

/-- `BocHeader::try_parse`; an error is `None`, which `BocHeader::parse` replaces. -/
def tryParse : Read BocHeader := do
  let fields ← readFields width
  if !fields.validCounts width then throw (invalid "counts") else pure fields.header

/-- The sum of the counts in the header that a reader is at does not overflow. -/
def sumFits (r : BitReader) : Bool :=
  match readFields width r with
  | .ok (fields, _) => fields.sumFits width
  | .error _ => true

/-- `BocHeader::parse`. -/
def parse : Read BocHeader := orInvalid "invalid BoC header" (tryParse width)

/-- `BocHeader::read_raw_cells`. -/
def readRawCells (header : BocHeader) : Read (List RawCell) := do
  let start ← get
  let rawCells ← readMany (RawCell.parse width header.refBytes) header.cellsCount
  let stop ← get
  if stop.position - start.position ≠ header.totalCellsSize then
    throw (invalid "BoC cell size does not match header")
  else pure rawCells

end BocHeader

/-! ## Bags -/

/-- `BagOfCells`. -/
structure BagOfCells where
  roots : List Cell

/-- `bytes_needed`. -/
def bytesNeeded (value : ℕ) : ℕ := bytesFor (max value 1).size

variable (lib : HashLib)

namespace BagOfCells

/-- `BagOfCells::from_root`. -/
def fromRoot (root : Cell) : BagOfCells := ⟨[root]⟩

/-- The bytes before the checksum. -/
def payload (withCrc32c : Bool) (rawCells : List RawCell) (rootIndexes : List ℕ) : List UInt8 :=
  let refBytes := bytesNeeded rawCells.length
  let totalCellsSize := (rawCells.map fun cell => cell.size refBytes).sum
  let offsetBytes := bytesNeeded (max totalCellsSize 1)
  beBytes 4 bocMagic ++
    [(if withCrc32c then bitMask 6 else 0) ||| UInt8.ofNat refBytes, UInt8.ofNat offsetBytes] ++
    writeVarUint rawCells.length refBytes ++ writeVarUint rootIndexes.length refBytes ++
    writeVarUint 0 refBytes ++ writeVarUint totalCellsSize offsetBytes ++
    rootIndexes.flatMap (fun index => writeVarUint index refBytes) ++
    rawCells.flatMap (RawCell.write refBytes)

/-- `BagOfCells::serialize` after the index is built. -/
def serializeOrdered (bag : BagOfCells) (withCrc32c : Bool) (ordered : List (Hash × Cell)) :
    Except TvmError (List UInt8) := do
  let rawCells ← tryMap (fun entry => RawCell.fromCell ordered entry.2) ordered
  let rootIndexes ← tryMap
    (fun root => okOr (realIndex ordered root.hash) (invalid "missing BoC root")) bag.roots
  let output := payload withCrc32c rawCells rootIndexes
  .ok (if withCrc32c then output ++ leBytes 4 (lib.crc32c output).toNat else output)

/-- `BagOfCells::serialize`. -/
def serialize (fuel : ℕ) (bag : BagOfCells) (withCrc32c : Bool) :
    Option (Except TvmError (List UInt8)) := do
  let indexedCells ← buildIndex fuel bag.roots
  some (bag.serializeOrdered lib withCrc32c (orderedIndexedCells indexedCells))

end BagOfCells

/-- `validate_crc32c`. -/
def validateCrc32c (bytes : List UInt8) : Read Unit := do
  let expected ← readU32Le width
  if bytes.length < 4 then throw (invalid "invalid BoC length")
  else if expected ≠ (lib.crc32c (bytes.take (bytes.length - 4))).toNat then
    throw (invalid "invalid BoC crc32c")
  else pure ()

/-- The body of the loop of `build_cell_tree`: the references of a raw cell are looked up among
the cells behind it. -/
def buildCell (cells : List (Option Cell)) (entry : RawCell × ℕ) :
    Except TvmError (List (Option Cell)) := do
  let (raw, index) := entry
  let references ← tryMap
    (fun reference =>
      if reference ≤ index then .error (invalid "BoC references must point to later cells")
      else okOr (cells[reference]?.join) (invalid "BoC reference out of bounds"))
    raw.references
  let cell ← Cell.new lib raw.data raw.bitLen references
  .ok (cells.set index (some cell))

/-- `build_cell_tree`: the cells from the last to the first. -/
def buildCellTree (rawCells : List RawCell) : Except TvmError (List Cell) := do
  let cells ← rawCells.zipIdx.reverse.foldlM (buildCell lib)
    (List.replicate rawCells.length none)
  tryMap (fun cell => okOr cell (invalid "BoC cell out of bounds")) cells

/-- The offsets of the cells, when there are any, are skipped. -/
def BocHeader.skipIndex (header : BocHeader) : Read Unit :=
  if header.hasIdx then skip width (header.cellsCount * header.offBytes) else pure ()

/-- The checksum, when there is one, is checked. -/
def BocHeader.checkCrc32c (header : BocHeader) (bytes : List UInt8) : Read Unit :=
  if header.hasCrc32c then validateCrc32c width lib bytes else pure ()

/-- What `BagOfCells::parse` reads: the raw cells and the indices of the roots. -/
def readBag (bytes : List UInt8) : Read (List RawCell × List ℕ) := do
  let header ← BocHeader.parse width
  let rootIndexes ← readMany (readVarUint width header.refBytes) header.rootsCount
  header.skipIndex width
  let rawCells ← header.readRawCells width
  header.checkCrc32c width lib bytes
  pure (rawCells, rootIndexes)

/-- `BagOfCells::parse`. -/
def BagOfCells.parse (bytes : List UInt8) : Except TvmError BagOfCells := do
  let ((rawCells, rootIndexes), reader) ← readBag width lib bytes (BitReader.new width bytes)
  if reader.remaining ≠ 0 then .error (invalid "unexpected trailing BoC bytes")
  else do
    let cells ← buildCellTree lib rawCells
    let roots ← tryMap
      (fun index => okOr cells[index]? (invalid "BoC root out of bounds")) rootIndexes
    .ok ⟨roots⟩

/-- `BagOfCells::get_single_root`. -/
def BagOfCells.getSingleRoot (bag : BagOfCells) : Except TvmError Cell :=
  match bag.roots with
  | [root] => .ok root
  | _ => .error (invalid "BoC must contain exactly one root")

end GemCore.Ton
