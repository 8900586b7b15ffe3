import GemCore.Ton.Builder
import GemCore.Ton.Index

/-!
# Bags of cells are read back

What `BagOfCells::serialize` writes for a tree of at most 4096 distinct cells, all made by a
builder, `BagOfCells::parse` reads back as the same tree, with and without a checksum. SHA-256 is
assumed to separate the cells of the tree.

## Main definitions

* `Ordered` — the entries of the bag in an order that references follow.

## Main results

* `buildIndex_ordered` — the repaired index orders the cells of the tree.
* `buildCellTree_rawCells` — the cells are rebuilt from the last to the first.
* `parse_serialize` — the round trip.
-/

namespace GemCore.Ton

open Lib

variable {width : PointerWidth} (lib : HashLib)

/-! ## The order of the cells -/

/-- The cells of some trees with their hashes, each once, in an order in which references point
forward. -/
structure Ordered (roots : List Cell) (ordered : List (Hash × Cell)) : Prop where
  nodup : (ordered.map Prod.fst).Nodup
  entries : ∀ hash c, (hash, c) ∈ ordered → c.hash = hash ∧ c ∈ cellsOf roots
  complete : ∀ c ∈ cellsOf roots, (c.hash, c) ∈ ordered
  forward : ∀ (i j : ℕ) (c r : Cell), ordered[i]? = some (c.hash, c) → ordered[j]? = some (r.hash, r) →
    r ∈ c.references → i < j

/-- Where SHA-256 separates well-formed cells, the entry under the hash of a cell is the cell. -/
theorem Indexed.ordered {roots : List Cell} {ordered : List (Hash × Cell)}
    (hroots : Separated lib roots) (h : Indexed roots ordered) : Ordered roots ordered where
  nodup := h.nodup
  entries := h.entries
  complete c hc := by
    obtain ⟨⟨hash, e⟩, he, heq⟩ := List.mem_map.mp (h.complete c hc)
    obtain ⟨hhash, hmem⟩ := h.entries hash e he
    dsimp only at heq
    obtain rfl := hroots.eq_of_hash_eq e c hmem hc (hhash.trans heq)
    rwa [hhash]
  forward i j c r hi hj hr := by
    have hc := (h.entries _ c (List.mem_of_getElem? hi)).2
    refine h.forward c hc r hr i j ?_ ?_
    · rw [List.getElem?_map, hi]
      rfl
    · rw [List.getElem?_map, hj]
      rfl

/-- **The index** of some trees is finished after a number of rounds bounded by their depth, and
its entries in order are the cells of the trees with references pointing forward. -/
theorem buildIndex_ordered {roots : List Cell} (hroots : Separated lib roots) :
    ∃ s, (∀ fuel, maxDepth roots + 2 ≤ fuel → buildIndex fuel roots = some s) ∧
      Ordered roots (orderedIndexedCells s) := by
  obtain ⟨s, hrun, hindexed⟩ := buildIndex_indexed hroots.made.graded
  exact ⟨s, hrun, hindexed.ordered lib hroots⟩

/-! ## Raw cells and back -/

/-- A cell with the positions of its references. -/
def rawCell (ordered : List (Hash × Cell)) (c : Cell) : RawCell :=
  ⟨c.data, c.bitLen, c.references.map fun r => (realIndex ordered r.hash).getD 0⟩

section Rebuild

variable {lib} {roots : List Cell} {ordered : List (Hash × Cell)} (h : Ordered roots ordered)

include h

/-- The index of an entry is its position. -/
lemma Ordered.realIndex_eq {j : ℕ} {c : Cell} (hj : ordered[j]? = some (c.hash, c)) :
    realIndex ordered c.hash = some j := by
  rw [realIndex_eq_some_iff h.nodup, List.getElem?_map, hj]
  rfl

/-- Every cell of the trees has a position. -/
lemma Ordered.position {c : Cell} (hc : c ∈ cellsOf roots) :
    ∃ j, ordered[j]? = some (c.hash, c) ∧ realIndex ordered c.hash = some j := by
  obtain ⟨j, hj⟩ := List.mem_iff_getElem?.mp (h.complete c hc)
  exact ⟨j, hj, h.realIndex_eq hj⟩

/-- The positions of the cells are below their number. -/
lemma Ordered.realIndex_lt {c : Cell} (hc : c ∈ cellsOf roots) :
    (realIndex ordered c.hash).getD 0 < ordered.length := by
  obtain ⟨j, hj, hindex⟩ := h.position hc
  rw [hindex]
  exact (List.getElem?_eq_some_iff.mp hj).1

lemma Ordered.fromCell_eq {c : Cell} (hc : c ∈ cellsOf roots) :
    RawCell.fromCell ordered c = .ok (rawCell ordered c) := by
  unfold RawCell.fromCell
  rw [tryMap_eq_map (g := fun r => (realIndex ordered r.hash).getD 0), ok_bind]
  · rfl
  · intro r hr
    obtain ⟨j, -, hindex⟩ := h.position (references_mem_cellsOf hc hr)
    simp [hindex]

/-- The cells of `build_cell_tree` when those from position `k` on are rebuilt. -/
def rebuiltFrom (ordered : List (Hash × Cell)) (k : ℕ) : List (Option Cell) :=
  List.replicate k none ++ (ordered.drop k).map fun entry => some entry.2

omit h in
lemma getElem?_rebuiltFrom {k j : ℕ} (hkj : k ≤ j) {entry : Hash × Cell}
    (hj : ordered[j]? = some entry) : (rebuiltFrom ordered k)[j]? = some (some entry.2) := by
  unfold rebuiltFrom
  rw [List.getElem?_append_right (by simpa using hkj), List.length_replicate, List.getElem?_map,
    List.getElem?_drop, Nat.add_sub_cancel' hkj, hj]
  rfl

/-- **One cell is rebuilt** from its raw form and the cells behind it. -/
theorem Ordered.buildCell_eq (hroots : Separated lib roots) {k : ℕ} {c : Cell}
    (hk : ordered[k]? = some (c.hash, c)) :
    buildCell lib (rebuiltFrom ordered (k + 1)) (rawCell ordered c, k) =
      .ok (rebuiltFrom ordered k) := by
  have hc : c ∈ cellsOf roots := (h.entries _ c (List.mem_of_getElem? hk)).2
  have hrefs : tryMap (fun reference =>
      if reference ≤ k then .error (invalid "BoC references must point to later cells")
      else okOr ((rebuiltFrom ordered (k + 1))[reference]?.join)
        (invalid "BoC reference out of bounds")) (rawCell ordered c).references =
      .ok c.references := by
    rw [tryMap_eq_ok_iff, rawCell, List.forall₂_map_left_iff, List.forall₂_same]
    intro r hr
    obtain ⟨j, hj, hindex⟩ := h.position (references_mem_cellsOf hc hr)
    have hkj := h.forward k j c r hk hj hr
    simp only [hindex, Option.getD_some]
    rw [if_neg (by omega), getElem?_rebuiltFrom (by omega) hj]
    rfl
  have hnew : Cell.new lib (rawCell ordered c).data (rawCell ordered c).bitLen c.references =
      .ok c := by
    unfold Cell.new rawCell
    rw [(hroots.of_mem hc).tryNew_eq]
    rfl
  obtain ⟨hlen, hget⟩ := List.getElem?_eq_some_iff.mp hk
  have hdrop : ordered.drop k = (c.hash, c) :: ordered.drop (k + 1) := by
    rw [List.drop_eq_getElem_cons hlen, hget]
  unfold buildCell
  dsimp only
  rw [hrefs, ok_bind, hnew, ok_bind]
  unfold rebuiltFrom
  rw [hdrop, List.replicate_succ', List.append_assoc, List.set_append_right _ _ (by simp)]
  simp

/-- **The trees are rebuilt** from the last cell to the first.

**Proof sketch.** Induction on the number of cells that are left: the loop rebuilds the last of
them, whose references point to cells that are rebuilt already. -/
theorem Ordered.buildCellTree_eq (hroots : Separated lib roots) :
    buildCellTree lib (ordered.map fun entry => rawCell ordered entry.2) =
      .ok (ordered.map Prod.snd) := by
  set raws := ordered.map fun entry => rawCell ordered entry.2 with hraws
  have hloop : ∀ k, k ≤ ordered.length →
      (raws.zipIdx.take k).reverse.foldlM (buildCell lib) (rebuiltFrom ordered k) =
        .ok (rebuiltFrom ordered 0) := by
    intro k
    induction k with
    | zero =>
      intro _
      rfl
    | succ k ih =>
      intro hk
      obtain ⟨⟨hash, c⟩, hget⟩ : ∃ entry, ordered[k]? = some entry :=
        ⟨ordered[k], List.getElem?_eq_getElem hk⟩
      obtain ⟨rfl, -⟩ := h.entries hash c (List.mem_of_getElem? hget)
      have hlast : raws.zipIdx[k]? = some (rawCell ordered c, k) := by
        simp [hraws, hget]
      rw [List.take_add_one, hlast, Option.toList_some, List.reverse_append, List.reverse_singleton,
        List.singleton_append, List.foldlM_cons, h.buildCell_eq hroots hget, ok_bind]
      exact ih (by omega)
  have hall := hloop ordered.length le_rfl
  have hlen : raws.zipIdx.length = ordered.length := by simp [hraws]
  rw [List.take_of_length_le hlen.le] at hall
  have hstart : rebuiltFrom ordered ordered.length = List.replicate raws.length none := by
    simp [rebuiltFrom, hraws]
  have hend : rebuiltFrom ordered 0 = ordered.map fun entry => some entry.2 := by
    simp [rebuiltFrom]
  unfold buildCellTree
  rw [← hstart, hall, ok_bind, hend, tryMap_eq_ok_iff, List.forall₂_map_left_iff,
    List.forall₂_map_right_iff, List.forall₂_same]
  intro entry _
  rfl

end Rebuild

/-! ## Reading raw cells -/

/-- A raw cell that can be written with references of `refSize` bytes. -/
structure RawCell.Writable (refSize : ℕ) (raw : RawCell) : Prop where
  bitLen_le : raw.bitLen ≤ 1023
  length_data : raw.data.length = bytesFor raw.bitLen
  zeroPadded : ZeroPadded raw.data raw.bitLen
  length_references : raw.references.length ≤ 4
  references_lt : ∀ r ∈ raw.references, r < 256 ^ refSize

/-- The first descriptor of an ordinary cell holds the number of its references. -/
theorem refsDescriptor_bits {count : ℕ} (h : count ≤ 4) :
    (UInt8.ofNat count &&& 0b111).toNat = count ∧ UInt8.ofNat count &&& 0b1000 = 0 ∧
      UInt8.ofNat count &&& 0b10000 = 0 ∧ UInt8.ofNat count >>> 5 = 0 := by
  have hall : ∀ n : Fin 5, (UInt8.ofNat n.val &&& 0b111).toNat = n.val ∧
      UInt8.ofNat n.val &&& 0b1000 = 0 ∧ UInt8.ofNat n.val &&& 0b10000 = 0 ∧
      UInt8.ofNat n.val >>> 5 = 0 := by decide
  exact hall ⟨count, by omega⟩

/-- The second descriptor gives back the number of bytes and whether the last is complete. -/
theorem bitsDescriptor_bits {bitLen : ℕ} (h : bitLen ≤ 1023) :
    ((descriptorByte bitLen >>> 1) + (descriptorByte bitLen &&& 1)).toNat = bytesFor bitLen ∧
      (descriptorByte bitLen &&& 1 = 0 ↔ bitLen % 8 = 0) := by
  have hall : ∀ n : Fin 256,
      ((UInt8.ofNat n.val >>> 1) + (UInt8.ofNat n.val &&& 1)).toNat = (n.val + 1) / 2 ∧
        (UInt8.ofNat n.val &&& 1 = 0 ↔ n.val % 2 = 0) := by decide +kernel
  unfold descriptorByte bytesFor
  split_ifs with hfull
  · have hn := hall ⟨(bitLen + 7) / 8 * 2 - 0, by omega⟩
    dsimp only at hn
    refine ⟨hn.1.trans (by omega), hn.2.trans ?_⟩
    omega
  · have hn := hall ⟨(bitLen + 7) / 8 * 2 - 1, by omega⟩
    dsimp only at hn
    refine ⟨hn.1.trans (by omega), hn.2.trans ?_⟩
    omega

/-- **A raw cell** is read back. -/
theorem reads_rawCell {refSize : ℕ} (hsize : refSize ≤ 4) {raw : RawCell}
    (h : raw.Writable refSize) : Reads (RawCell.parse width refSize) (raw.write refSize) raw := by
  obtain ⟨hcount, hexotic, hhashes, hlevel⟩ := refsDescriptor_bits h.length_references
  obtain ⟨hbytes, hfull⟩ := bitsDescriptor_bits h.bitLen_le
  have hunpad : unpadCellBits (serializedBits raw.data raw.bitLen)
      (descriptorByte raw.bitLen &&& 1 = 0) = some (raw.data, raw.bitLen) := by
    rw [← unpadCellBits_serializedBits h.length_data h.zeroPadded]
    simp only [hfull]
  have hreferences : Reads (readMany (readVarUint width refSize) raw.references.length)
      (raw.references.flatMap fun reference => writeVarUint reference refSize) raw.references :=
    Reads.many fun r hr => reads_readVarUint hsize (h.references_lt r hr)
  have htail : Reads
      (readMany (readVarUint width refSize) (UInt8.ofNat raw.references.length &&& 0b111).toNat >>=
        fun references => pure (⟨raw.data, raw.bitLen, references⟩ : RawCell))
      (raw.references.flatMap fun reference => writeVarUint reference refSize) raw := by
    rw [hcount]
    exact hreferences.map
  have hdata : Reads (readBytes width
      ((descriptorByte raw.bitLen >>> 1) + (descriptorByte raw.bitLen &&& 1)).toNat)
      (serializedBits raw.data raw.bitLen) (serializedBits raw.data raw.bitLen) := by
    rw [hbytes]
    exact reads_readBytes (length_serializedBits h.length_data)
  apply Reads.orInvalid
  have hwrite : raw.write refSize = [UInt8.ofNat raw.references.length] ++
      ([descriptorByte raw.bitLen] ++ (serializedBits raw.data raw.bitLen ++
        raw.references.flatMap fun reference => writeVarUint reference refSize)) := by
    simp [RawCell.write]
  rw [hwrite]
  refine (reads_readU8 _).bind ((reads_readU8 _).bind ?_)
  rw [if_neg (by simp [hexotic, hhashes, hlevel])]
  refine hdata.bind ?_
  simp only [hunpad]
  exact htail

/-- A raw cell takes as many bytes as its size says. -/
lemma RawCell.Writable.length_write {refSize : ℕ} {raw : RawCell}
    (h : raw.Writable refSize) : (raw.write refSize).length = raw.size refSize := by
  have hrefs : (raw.references.flatMap fun reference => writeVarUint reference refSize).length =
      raw.references.length * refSize := by
    simp [List.length_flatMap, writeVarUint]
  simp only [RawCell.write, RawCell.size, List.length_append, hrefs,
    length_serializedBits h.length_data, List.length_cons, List.length_nil]

/-- The cells take as many bytes as the header says. -/
lemma length_flatMap_write {refSize : ℕ} {raws : List RawCell}
    (h : ∀ raw ∈ raws, raw.Writable refSize) :
    (raws.flatMap (RawCell.write refSize)).length =
      (raws.map fun raw => raw.size refSize).sum := by
  induction raws with
  | nil => rfl
  | cons raw raws ih =>
    rw [List.flatMap_cons, List.length_append, (h raw List.mem_cons_self).length_write,
      ih fun r hr => h r (List.mem_cons_of_mem _ hr), List.map_cons, List.sum_cons]

/-- **The raw cells** of a bag are read back. -/
theorem reads_readRawCells {header : BocHeader} (hsize : header.refBytes ≤ 4)
    {raws : List RawCell} (hcount : header.cellsCount = raws.length)
    (h : ∀ raw ∈ raws, raw.Writable header.refBytes)
    (htotal : header.totalCellsSize = (raws.map fun raw => raw.size header.refBytes).sum) :
    Reads (header.readRawCells width) (raws.flatMap (RawCell.write header.refBytes)) raws := by
  have hmany : Reads (readMany (RawCell.parse width header.refBytes) header.cellsCount)
      (raws.flatMap (RawCell.write header.refBytes)) raws := by
    rw [hcount]
    exact Reads.many fun raw hraw => reads_rawCell hsize (h raw hraw)
  intro before behind hlen
  have hread := hmany before behind hlen
  have hposition : (before ++ raws.flatMap (RawCell.write header.refBytes)).length -
      before.length = header.totalCellsSize := by
    rw [List.length_append, length_flatMap_write h, htotal]
    omega
  change (readMany (RawCell.parse width header.refBytes) header.cellsCount (readerAt _ _) >>=
    fun s => (if s.2.position - (readerAt _ _).position ≠ header.totalCellsSize then
      throw (invalid "BoC cell size does not match header") else pure s.1 : Read _) s.2) = _
  rw [hread, ok_bind]
  simp only [readerAt_position, hposition, ne_eq, not_true_eq_false, if_false]
  rfl

/-! ## Reading the header -/

lemma bytesNeeded_pos (value : ℕ) : 1 ≤ bytesNeeded value := by
  have hsize : 0 < (max value 1).size := Nat.size_pos.mpr (by omega)
  unfold bytesNeeded bytesFor
  omega

lemma lt_pow_bytesNeeded (value : ℕ) : value < 256 ^ bytesNeeded value := by
  have hlt : max value 1 < 2 ^ (max value 1).size := Nat.lt_size_self _
  have hle : (max value 1).size ≤ 8 * bytesNeeded value := by
    unfold bytesNeeded bytesFor
    omega
  calc value ≤ max value 1 := le_max_left _ _
    _ < 2 ^ (max value 1).size := hlt
    _ ≤ 2 ^ (8 * bytesNeeded value) := Nat.pow_le_pow_right (by decide) hle
    _ = 256 ^ bytesNeeded value := pow_mul 2 8 _

lemma bytesNeeded_le {value n : ℕ} (hn : 1 ≤ n) (h : value < 256 ^ n) :
    bytesNeeded value ≤ n := by
  have hmax : max value 1 < 2 ^ (8 * n) := by
    have hone : 1 < 256 ^ n := Nat.one_lt_pow (by omega) (by decide)
    rw [pow_mul]
    exact max_lt h hone
  have hsize := Nat.size_le.mpr hmax
  unfold bytesNeeded bytesFor
  omega

/-- The flag byte holds the size of a reference and whether a checksum follows. -/
theorem flags_bits (withCrc32c : Bool) {refBytes : ℕ} (h : refBytes ≤ 4) :
    (((if withCrc32c then bitMask 6 else 0) ||| UInt8.ofNat refBytes) &&& 0b111).toNat =
        refBytes ∧
      ((if withCrc32c then bitMask 6 else 0) ||| UInt8.ofNat refBytes) &&& 0b10000000 = 0 ∧
      (((if withCrc32c then bitMask 6 else 0) ||| UInt8.ofNat refBytes) &&& 0b01000000 ≠ 0 ↔
        withCrc32c = true) := by
  have hall : ∀ crc : Bool, ∀ n : Fin 5,
      (((if crc then bitMask 6 else 0) ||| UInt8.ofNat n.val) &&& 0b111).toNat = n.val ∧
        ((if crc then bitMask 6 else 0) ||| UInt8.ofNat n.val) &&& 0b10000000 = 0 ∧
        (((if crc then bitMask 6 else 0) ||| UInt8.ofNat n.val) &&& 0b01000000 ≠ 0 ↔
          crc = true) := by decide
  exact hall withCrc32c ⟨refBytes, by omega⟩

/-- The bytes of the header. -/
def headerBytes (header : BocHeader) : List UInt8 :=
  beBytes 4 bocMagic ++
    ([(if header.hasCrc32c then bitMask 6 else 0) ||| UInt8.ofNat header.refBytes] ++
      ([UInt8.ofNat header.offBytes] ++ (writeVarUint header.cellsCount header.refBytes ++
        (writeVarUint header.rootsCount header.refBytes ++ (writeVarUint 0 header.refBytes ++
          writeVarUint header.totalCellsSize header.offBytes)))))

/-- A header that can be written. -/
structure BocHeader.Writable (header : BocHeader) : Prop where
  no_idx : header.hasIdx = false
  refBytes_pos : 1 ≤ header.refBytes
  refBytes_le : header.refBytes ≤ 4
  offBytes_pos : 1 ≤ header.offBytes
  offBytes_le : header.offBytes ≤ 4
  cellsCount_lt : header.cellsCount < 256 ^ header.refBytes
  cellsCount_le : header.cellsCount ≤ 4096
  rootsCount_pos : 1 ≤ header.rootsCount
  rootsCount_le : header.rootsCount ≤ header.cellsCount
  totalCellsSize_lt : header.totalCellsSize < 256 ^ header.offBytes

/-- **The header** is read back. -/
theorem reads_header {header : BocHeader} (h : header.Writable) :
    Reads (BocHeader.parse width) (headerBytes header) header := by
  obtain ⟨hrefs, hidx, hcrc⟩ := flags_bits header.hasCrc32c h.refBytes_le
  have hoff : (UInt8.ofNat header.offBytes).toNat = header.offBytes := by
    rw [UInt8.toNat_ofNat']
    exact Nat.mod_eq_of_lt (by have := h.offBytes_le; omega)
  have hroots : header.rootsCount < 256 ^ header.refBytes :=
    h.rootsCount_le.trans_lt h.cellsCount_lt
  have hflag : (((if header.hasCrc32c then bitMask 6 else 0) ||| UInt8.ofNat header.refBytes) &&&
      0b01000000 ≠ 0 : Bool) = header.hasCrc32c := by
    rw [Bool.eq_iff_iff, decide_eq_true_iff]
    exact hcrc
  set fields : BocHeader.Fields := ⟨_, header.refBytes, header.offBytes, header.cellsCount,
    header.rootsCount, 0, header.totalCellsSize⟩ with hfields
  have hread : Reads (BocHeader.readFields width) (headerBytes header) fields := by
    unfold BocHeader.readFields headerBytes
    refine (reads_readU32 (by decide)).bind ?_
    rw [if_neg (by simp)]
    refine (reads_readU8 _).bind ?_
    simp only [hrefs]
    rw [if_neg (by have := h.refBytes_pos; have := h.refBytes_le; omega)]
    refine (reads_readU8 _).bind ?_
    simp only [hoff]
    rw [if_neg (by have := h.offBytes_pos; have := h.offBytes_le; omega)]
    exact (reads_readVarUint h.refBytes_le h.cellsCount_lt).bind
      ((reads_readVarUint h.refBytes_le hroots).bind
        ((reads_readVarUint h.refBytes_le (Nat.pow_pos (by decide))).bind
          (reads_readVarUint h.offBytes_le h.totalCellsSize_lt).map))
  have hcounts : fields.validCounts width = true := by
    have hcells := h.cellsCount_le
    have hpos := h.rootsCount_pos
    have hle := h.rootsCount_le
    have hsum : header.rootsCount % width.usize = header.rootsCount :=
      Nat.mod_eq_of_lt (by have := width.le_usize; omega)
    simp [BocHeader.Fields.validCounts, BocHeader.Fields.validRoots, maxCells, hfields, hsum]
    omega
  have hheader : fields.header = header := by
    rw [hfields, BocHeader.Fields.header]
    simp only [hflag, hidx, ne_eq, not_true_eq_false, decide_false, ← h.no_idx]
  apply Reads.orInvalid
  rw [← List.append_nil (headerBytes header)]
  refine hread.bind ?_
  rw [hcounts, hheader]
  exact Reads.pure header

/-! ## The round trip -/

/-- The bytes of the checksum, if there is one. -/
def crcBytes (withCrc32c : Bool) (payload : List UInt8) : List UInt8 :=
  if withCrc32c then leBytes 4 (lib.crc32c payload).toNat else []

/-- **The checksum** of the payload is accepted. -/
theorem reads_checkCrc32c (header : BocHeader) (payload : List UInt8) :
    Reads (header.checkCrc32c width lib (payload ++ crcBytes lib header.hasCrc32c payload))
      (crcBytes lib header.hasCrc32c payload) () := by
  unfold BocHeader.checkCrc32c crcBytes
  split_ifs
  · have hread : Reads (readU32Le width) (leBytes 4 (lib.crc32c payload).toNat) _ :=
      reads_readU32Le (lib.crc32c payload).toNat_lt
    unfold validateCrc32c
    rw [← List.append_nil (leBytes 4 (lib.crc32c payload).toNat)]
    refine hread.bind ?_
    have htake : (payload ++ (leBytes 4 (lib.crc32c payload).toNat ++ [])).take
        ((payload ++ (leBytes 4 (lib.crc32c payload).toNat ++ [])).length - 4) = payload := by
      simp
    rw [htake, if_neg (by simp), if_neg (by simp)]
    exact Reads.pure ()
  · exact Reads.pure ()

/-- **A bag** is read back into its raw cells and the positions of its roots. -/
theorem reads_readBag {header : BocHeader} (h : header.Writable) {raws : List RawCell}
    {roots : List ℕ} (hcount : header.cellsCount = raws.length)
    (hraws : ∀ raw ∈ raws, raw.Writable header.refBytes)
    (htotal : header.totalCellsSize = (raws.map fun raw => raw.size header.refBytes).sum)
    (hrootsCount : header.rootsCount = roots.length)
    (hroots : ∀ index ∈ roots, index < 256 ^ header.refBytes) (payload : List UInt8) :
    Reads (readBag width lib (payload ++ crcBytes lib header.hasCrc32c payload))
      (headerBytes header ++ (roots.flatMap (fun index => writeVarUint index header.refBytes) ++
        (raws.flatMap (RawCell.write header.refBytes) ++
          crcBytes lib header.hasCrc32c payload))) (raws, roots) := by
  have hindexes : Reads (readMany (readVarUint width header.refBytes) header.rootsCount)
      (roots.flatMap fun index => writeVarUint index header.refBytes) roots := by
    rw [hrootsCount]
    exact Reads.many fun index hindex => reads_readVarUint h.refBytes_le (hroots index hindex)
  have hskip : Reads (header.skipIndex width) [] () := by
    unfold BocHeader.skipIndex
    rw [if_neg (by simp [h.no_idx])]
    exact Reads.pure ()
  have hend : Reads (header.checkCrc32c width lib (payload ++ crcBytes lib header.hasCrc32c payload) >>=
      fun _ => pure (raws, roots)) (crcBytes lib header.hasCrc32c payload) (raws, roots) :=
    (reads_checkCrc32c lib header payload).map
  exact (reads_header h).bind (hindexes.bind
    (hskip.bind ((reads_readRawCells h.refBytes_le hcount hraws htotal).bind hend)))

open Classical in
/-- The number of distinct cells of a tree. -/
noncomputable def distinctCells (root : Cell) : ℕ := root.cells.toFinset.card

open Classical in
/-- The number of distinct cells of some trees. -/
noncomputable def distinctCellsOf (roots : List Cell) : ℕ := (cellsOf roots).toFinset.card

lemma distinctCellsOf_singleton (root : Cell) : distinctCellsOf [root] = distinctCells root := by
  rw [distinctCellsOf, cellsOf_singleton, distinctCells]

/-- The bag has an entry for each distinct cell. -/
lemma Ordered.length_eq {roots : List Cell} {ordered : List (Hash × Cell)}
    (h : Ordered roots ordered) : ordered.length = distinctCellsOf roots := by
  classical
  have hhash : (ordered.map Prod.snd).map Cell.hash = ordered.map Prod.fst := by
    rw [List.map_map]
    apply List.map_congr_left
    rintro ⟨hash, c⟩ hentry
    exact (h.entries hash c hentry).1
  have hnodup : (ordered.map Prod.snd).Nodup := List.Nodup.of_map Cell.hash (hhash ▸ h.nodup)
  have hcells : (ordered.map Prod.snd).toFinset = (cellsOf roots).toFinset := by
    ext c
    rw [List.mem_toFinset, List.mem_toFinset]
    constructor
    · intro hc
      obtain ⟨⟨hash, d⟩, hentry, rfl⟩ := List.mem_map.mp hc
      exact (h.entries hash d hentry).2
    · intro hc
      exact List.mem_map.mpr ⟨(c.hash, c), h.complete c hc, rfl⟩
  calc ordered.length = (ordered.map Prod.snd).length := by simp
    _ = (ordered.map Prod.snd).toFinset.card := (List.toFinset_card_of_nodup hnodup).symm
    _ = (cellsOf roots).toFinset.card := by rw [hcells]
    _ = distinctCellsOf roots := by
      unfold distinctCellsOf
      congr

/-- The raw form of a cell of the trees can be written. -/
lemma Ordered.writable {roots : List Cell} {c : Cell} {ordered : List (Hash × Cell)}
    {refSize : ℕ} (h : Ordered roots ordered) (hroots : Separated lib roots)
    (hc : c ∈ cellsOf roots) (hsize : ordered.length ≤ 256 ^ refSize) :
    (rawCell ordered c).Writable refSize := by
  have hwf := hroots.of_mem hc
  refine ⟨hwf.bitLen_le, hwf.length_data, hwf.zeroPadded, ?_, ?_⟩
  · simpa [rawCell] using hwf.length_references
  · intro index hindex
    obtain ⟨r, hr, rfl⟩ := List.mem_map.mp hindex
    exact (h.realIndex_lt (references_mem_cellsOf hc hr)).trans_le hsize

/-- A written cell takes at most 162 bytes. -/
lemma sum_size_le {refSize : ℕ} (hsize : refSize ≤ 8) {raws : List RawCell}
    (h : ∀ raw ∈ raws, raw.Writable refSize) :
    (raws.map fun raw => raw.size refSize).sum ≤ raws.length * 162 := by
  induction raws with
  | nil => simp
  | cons raw raws ih =>
    have hraw := h raw List.mem_cons_self
    have hrest := ih fun r hr => h r (List.mem_cons_of_mem _ hr)
    have hone : raw.size refSize ≤ 162 := by
      have hbits := hraw.bitLen_le
      have hrefs : raw.references.length * refSize ≤ 4 * 8 :=
        Nat.mul_le_mul hraw.length_references hsize
      unfold RawCell.size bytesFor
      omega
    simp only [List.map_cons, List.sum_cons, List.length_cons]
    omega

/-- The positions of the roots. -/
def rootPositions (ordered : List (Hash × Cell)) (roots : List Cell) : List ℕ :=
  roots.map fun root => (realIndex ordered root.hash).getD 0

/-- The bytes of a bag whose cells are in order. -/
def bagPayload (withCrc32c : Bool) (ordered : List (Hash × Cell)) (roots : List Cell) :
    List UInt8 :=
  BagOfCells.payload withCrc32c (ordered.map fun entry => rawCell ordered entry.2)
    (rootPositions ordered roots)

/-- What `serialize` writes for an ordered bag. -/
lemma serializeOrdered_eq {roots : List Cell} {ordered : List (Hash × Cell)}
    (h : Ordered roots ordered) (withCrc32c : Bool) :
    (BagOfCells.mk roots).serializeOrdered lib withCrc32c ordered =
      .ok (bagPayload withCrc32c ordered roots ++
        crcBytes lib withCrc32c (bagPayload withCrc32c ordered roots)) := by
  have hraws : tryMap (fun entry => RawCell.fromCell ordered entry.2) ordered =
      .ok (ordered.map fun entry => rawCell ordered entry.2) := by
    apply tryMap_eq_map
    rintro ⟨hash, c⟩ hentry
    exact h.fromCell_eq (h.entries hash c hentry).2
  have hpositions : tryMap (fun root => okOr (realIndex ordered root.hash)
      (invalid "missing BoC root")) roots = .ok (rootPositions ordered roots) := by
    apply tryMap_eq_map
    intro root hroot
    obtain ⟨j, -, hindex⟩ := h.position (mem_cellsOf.mpr ⟨root, hroot, root.self_mem_cells⟩)
    simp [hindex]
  unfold BagOfCells.serializeOrdered
  rw [hraws, ok_bind]
  dsimp only
  rw [hpositions, ok_bind]
  unfold crcBytes bagPayload
  split_ifs
  · rfl
  · simp

/-- The header of a bag. -/
def bagHeader (withCrc32c : Bool) (raws : List RawCell) (roots : List ℕ) : BocHeader where
  hasIdx := false
  hasCrc32c := withCrc32c
  refBytes := bytesNeeded raws.length
  offBytes := bytesNeeded (max (raws.map fun raw => raw.size (bytesNeeded raws.length)).sum 1)
  cellsCount := raws.length
  rootsCount := roots.length
  totalCellsSize := (raws.map fun raw => raw.size (bytesNeeded raws.length)).sum

/-- The payload is the header, the positions of the roots and the cells. -/
lemma payload_eq (withCrc32c : Bool) (raws : List RawCell) (roots : List ℕ) :
    BagOfCells.payload withCrc32c raws roots =
      headerBytes (bagHeader withCrc32c raws roots) ++
        (roots.flatMap (fun index => writeVarUint index (bytesNeeded raws.length)) ++
          raws.flatMap (RawCell.write (bytesNeeded raws.length))) := by
  simp only [BagOfCells.payload, headerBytes, bagHeader, List.append_assoc, List.cons_append,
    List.nil_append]
  rfl

section Payload

variable {raws : List RawCell} {roots : List ℕ} (hcount : raws.length ≤ 4096)
  (hraws : ∀ raw ∈ raws, raw.Writable (bytesNeeded raws.length))

include hcount

/-- Up to 4096 cells need at most two bytes for a reference. -/
lemma refBytes_le_two : bytesNeeded raws.length ≤ 2 :=
  bytesNeeded_le (by decide) (by omega)

include hraws

/-- The cells of a bag take less than `2^24` bytes. -/
lemma totalSize_lt :
    (raws.map fun raw => raw.size (bytesNeeded raws.length)).sum < 256 ^ 3 := by
  have hrefs := refBytes_le_two hcount
  have hsum := sum_size_le (by omega) hraws
  omega

lemma offBytes_le_three :
    bytesNeeded (max (raws.map fun raw => raw.size (bytesNeeded raws.length)).sum 1) ≤ 3 :=
  bytesNeeded_le (by decide) (max_lt (totalSize_lt hcount hraws) (by decide))

/-- The header of a bag with at most 4096 cells can be written. -/
lemma bagHeader_writable (hroots : 1 ≤ roots.length) (hle : roots.length ≤ raws.length)
    (withCrc32c : Bool) : (bagHeader withCrc32c raws roots).Writable where
  no_idx := rfl
  refBytes_pos := bytesNeeded_pos _
  refBytes_le := (refBytes_le_two hcount).trans (by decide)
  offBytes_pos := bytesNeeded_pos _
  offBytes_le := (offBytes_le_three hcount hraws).trans (by decide)
  cellsCount_lt := lt_pow_bytesNeeded _
  cellsCount_le := hcount
  rootsCount_pos := hroots
  rootsCount_le := hle
  totalCellsSize_lt := (le_max_left _ _).trans_lt (lt_pow_bytesNeeded _)

/-- A bag with at most 4096 cells is far shorter than `2^29` bytes. -/
lemma length_payload_lt (hle : roots.length ≤ 4096) (withCrc32c : Bool) :
    (BagOfCells.payload withCrc32c raws roots).length + 4 < 2 ^ 29 := by
  have hrefs := refBytes_le_two hcount
  have htotal := totalSize_lt hcount hraws
  have hoff := offBytes_le_three hcount hraws
  have hroots : (roots.flatMap fun index =>
      writeVarUint index (bytesNeeded raws.length)).length ≤ 4096 * 2 := by
    have heq : (roots.flatMap fun index => writeVarUint index (bytesNeeded raws.length)).length =
        roots.length * bytesNeeded raws.length := by
      simp [List.length_flatMap, writeVarUint]
    rw [heq]
    exact Nat.mul_le_mul hle hrefs
  rw [payload_eq]
  simp only [headerBytes, bagHeader, writeVarUint, List.length_append, List.length_cons,
    List.length_nil, length_beBytes, length_flatMap_write hraws]
  unfold writeVarUint at hroots
  omega

variable (width) in
/-- **The bytes of a bag** are read back into its raw cells and the positions of its roots. -/
theorem readBag_payload (hroots : 1 ≤ roots.length) (hle : roots.length ≤ raws.length)
    (hindexes : ∀ index ∈ roots, index < raws.length) (withCrc32c : Bool)
    {payload bytes : List UInt8} (hpayload : payload = BagOfCells.payload withCrc32c raws roots)
    (hbytes : bytes = payload ++ crcBytes lib withCrc32c payload) :
    readBag width lib bytes (BitReader.new width bytes) = .ok ((raws, roots), readerAt bytes bytes.length) := by
  have hchunks : bytes = headerBytes (bagHeader withCrc32c raws roots) ++
      (roots.flatMap (fun index => writeVarUint index (bytesNeeded raws.length)) ++
        (raws.flatMap (RawCell.write (bytesNeeded raws.length)) ++
          crcBytes lib withCrc32c payload)) := by
    have hsplit := hpayload.trans (payload_eq withCrc32c raws roots)
    rw [hbytes, ← List.append_assoc, ← List.append_assoc]
    congr 1
    rw [hsplit, List.append_assoc]
  have hread : Reads (readBag width lib bytes) bytes (raws, roots) := by
    nth_rewrite 2 [hchunks]
    rw [hbytes]
    exact reads_readBag lib (bagHeader_writable hcount hraws hroots hle withCrc32c) rfl
      hraws rfl rfl
      (fun index hindex => (hindexes index hindex).trans (lt_pow_bytesNeeded _)) payload
  have hfit : bytes.length < 2 ^ 29 := by
    have hcrc : (crcBytes lib withCrc32c payload).length ≤ 4 := by
      unfold crcBytes
      split_ifs <;> simp
    have hlt := length_payload_lt hcount hraws (hle.trans hcount) withCrc32c
    rw [← hpayload] at hlt
    rw [hbytes, List.length_append]
    omega
  have hrun := hread [] [] (by simpa using hfit)
  rw [BitReader.new_eq hfit]
  simpa only [List.nil_append, List.append_nil, List.length_nil] using hrun

end Payload

/-- The raw cells of ordered trees can be written. -/
lemma Ordered.writable_rawCells {roots : List Cell} {ordered : List (Hash × Cell)}
    (h : Ordered roots ordered) (hroots : Separated lib roots) :
    ∀ raw ∈ ordered.map fun entry => rawCell ordered entry.2,
      raw.Writable (bytesNeeded (ordered.map fun entry => rawCell ordered entry.2).length) := by
  intro raw hraw
  obtain ⟨⟨hash, c⟩, hentry, rfl⟩ := List.mem_map.mp hraw
  refine h.writable lib hroots (h.entries hash c hentry).2 ?_
  rw [List.length_map]
  exact (lt_pow_bytesNeeded _).le

/-- **The written bag of ordered trees** is parsed back into the trees, when they are no more than
there are cells. -/
theorem parse_payload {roots : List Cell} {ordered : List (Hash × Cell)}
    (hroots : Separated lib roots) (h : Ordered roots ordered) (hcount : ordered.length ≤ 4096)
    (hne : roots ≠ []) (hle : roots.length ≤ ordered.length) (withCrc32c : Bool) :
    BagOfCells.parse width lib (bagPayload withCrc32c ordered roots ++
      crcBytes lib withCrc32c (bagPayload withCrc32c ordered roots)) = .ok ⟨roots⟩ := by
  have hlen : (ordered.map fun entry => rawCell ordered entry.2).length = ordered.length := by
    simp
  have hpositions : ∀ index ∈ rootPositions ordered roots, index < ordered.length := by
    intro index hindex
    obtain ⟨root, hroot, rfl⟩ := List.mem_map.mp hindex
    exact h.realIndex_lt (mem_cellsOf.mpr ⟨root, hroot, root.self_mem_cells⟩)
  have hrun := readBag_payload width lib (hlen.le.trans hcount) (h.writable_rawCells lib hroots)
    (show 1 ≤ (rootPositions ordered roots).length by
      rw [rootPositions, List.length_map]
      exact List.length_pos_iff.mpr hne)
    (by rw [hlen, rootPositions, List.length_map]; exact hle) (by rwa [hlen]) withCrc32c
    (show bagPayload withCrc32c ordered roots = _ from rfl) rfl
  have hdone : ∀ bytes : List UInt8, (readerAt bytes bytes.length).remaining = 0 := by
    simp [BitReader.remaining, BitReader.remainingBits, readerAt]
  have hback : tryMap (fun index => okOr (ordered.map Prod.snd)[index]?
      (invalid "BoC root out of bounds")) (rootPositions ordered roots) = .ok roots := by
    rw [tryMap_eq_ok_iff, rootPositions, List.forall₂_map_left_iff, List.forall₂_same]
    intro root hroot
    obtain ⟨j, hj, hindex⟩ := h.position (mem_cellsOf.mpr ⟨root, hroot, root.self_mem_cells⟩)
    simp [hindex, hj]
  unfold BagOfCells.parse
  rw [hrun, ok_bind]
  dsimp only
  rw [if_neg (not_not.mpr (hdone _)), h.buildCellTree_eq hroots, ok_bind, hback, ok_bind]

/-- **Round trip**: for a tree whose cells were all made by a builder, with at most 4096 distinct
cells that SHA-256 separates, `serialize` ends within a number of rounds bounded by the depth of
the tree, and `parse` reads the bytes back as a bag with the tree as its only root, with and
without a checksum.

**Proof sketch.** The index ends and orders the cells of the tree with references pointing
forward (`buildIndex_ordered`). The bytes are read back into the same raw cells
(`reads_readBag`), from which the tree is rebuilt from the last cell to the first
(`Ordered.buildCellTree_eq`). -/
theorem parse_serialize (width : PointerWidth) (lib : HashLib) (root : Cell) (hbuilt : Built lib root)
    (hcount : distinctCells root ≤ 4096) (hfree : CollisionFree lib root) (withCrc32c : Bool) :
    ∃ bytes bag,
      (∀ fuel, root.depth + 2 ≤ fuel →
        BagOfCells.serialize lib fuel (.fromRoot root) withCrc32c = some (.ok bytes)) ∧
      BagOfCells.parse width lib bytes = .ok bag ∧ bag.roots = [root] ∧
      bag.getSingleRoot = .ok root := by
  have hroots := Separated.single hbuilt.wellFormed hfree
  obtain ⟨s, hindex, hordered⟩ := buildIndex_ordered lib hroots
  rw [maxDepth_singleton] at hindex
  have hlength := hordered.length_eq
  rw [distinctCellsOf_singleton] at hlength
  obtain ⟨position, hget, -⟩ := hordered.position (c := root) (by simp [cellsOf_singleton, root.self_mem_cells])
  have hpos : 1 ≤ (orderedIndexedCells s).length :=
    Nat.succ_le_of_lt ((Nat.zero_le _).trans_lt (List.getElem?_eq_some_iff.mp hget).1)
  refine ⟨_, _, ?_, parse_payload lib hroots hordered (hlength.le.trans hcount)
    (List.cons_ne_nil _ _) hpos withCrc32c, rfl, rfl⟩
  intro fuel hfuel
  unfold BagOfCells.serialize
  have hrun : buildIndex fuel (BagOfCells.fromRoot root).roots = some s := hindex fuel hfuel
  simp only [hrun, Option.bind_eq_bind, Option.bind_some]
  exact congrArg some (serializeOrdered_eq lib hordered withCrc32c)

/-! ## A tree with a shared cell -/

lemma sampleLeaf_built : Built sampleHashLib sampleLeaf :=
  .build [.u8 3 5] _ (by simp [BuilderCall.cells]) rfl

lemma sampleMid_built : Built sampleHashLib sampleMid :=
  .build [.u8 8 255, .reference sampleLeaf] _
    (by simpa [BuilderCall.cells] using sampleLeaf_built) rfl

lemma sampleRoot_built : Built sampleHashLib sampleRoot :=
  .build [.bit true, .reference sampleLeaf, .reference sampleMid] _
    (by simpa [BuilderCall.cells] using ⟨sampleLeaf_built, sampleMid_built⟩) rfl

lemma sampleRoot_collisionFree : CollisionFree sampleHashLib sampleRoot := by
  intro a ha b hb
  rw [← cellsOf_singleton] at ha hb
  exact sampleRoot_made.free a ha b hb

theorem parse_serialize_sample :
    ∃ bytes bag, (∀ fuel, 4 ≤ fuel →
        BagOfCells.serialize sampleHashLib fuel (.fromRoot sampleRoot) true = some (.ok bytes)) ∧
      BagOfCells.parse .bits64 sampleHashLib bytes = .ok bag ∧ bag.roots = [sampleRoot] ∧
      bag.getSingleRoot = .ok sampleRoot := by
  classical
  have hcount : distinctCells sampleRoot ≤ 4096 := by
    unfold distinctCells
    exact (List.toFinset_card_le _).trans (by decide)
  exact parse_serialize .bits64 sampleHashLib sampleRoot sampleRoot_built hcount sampleRoot_collisionFree
    true

end GemCore.Ton
