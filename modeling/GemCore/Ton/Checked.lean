import GemCore.Ton.Bag

/-!
# Bags of cells without panics

The parser of bags once more, with the operations of the source that panic: an index or a slice that
is out of bounds, and arithmetic that overflows. `none` stands for a panic. There are two: the bits of
the input do not fit a `usize`, and, with pointers of 32 bits, the sum of two counts in the header does
not. Else the result is that of `BagOfCells.parse`.

## Main definitions

* `Checked` — a read that may panic, with the reads of the parser in its namespace.
* `Covers` — a read never panics and returns what the unchecked read returns.

## Main results

* `Checked.parse_eq` — when the parser panics, and what it returns otherwise.
-/

namespace GemCore.Ton

open Lib

/-- A read that may panic. -/
abbrev Checked := StateT BitReader (ExceptT TvmError Option)

namespace Checked

variable (width : PointerWidth) {α : Type}

/-- What an operation returns unless it panics. -/
def ofOption (o : Option α) : Checked α := fun r => o.map fun a => .ok (a, r)

/-- A number that an operation on a type with so many values returns. -/
def fits (bound n : ℕ) : Option ℕ := if n < bound then some n else none

/-- A difference. -/
def minus (m n : ℕ) : Option ℕ := if n ≤ m then some (m - n) else none

/-- `bytes[start..stop]`. -/
def slice (bytes : List UInt8) (start stop : ℕ) : Option (List UInt8) :=
  if start ≤ stop ∧ stop ≤ bytes.length then some ((bytes.drop start).take (stop - start)) else none

/-! ## The reader -/

/-- `BitReader::read_bit`. -/
def readBit : Checked Bool := do
  let r ← get
  if r.bitPosition ≥ r.bitLen then throw ⟨"unexpected end of input"⟩
  else do
    let byte ← ofOption r.bytes[r.bitPosition / 8]?
    let shift ← ofOption (minus 7 (r.bitPosition % 8))
    let position ← ofOption (fits width.usize (r.bitPosition + 1))
    set { r with bitPosition := position }
    pure (byte.toNat.testBit shift)

/-- The loop of `BitReader::read_uint`. -/
def readBitsInto : ℕ → ℕ → Checked ℕ
  | 0, value => pure value
  | n + 1, value => do
    let bit ← readBit width
    readBitsInto n (2 * value + bit.toNat)

/-- `BitReader::read_uint`. -/
def readUint (bitLen : ℕ) : Checked ℕ :=
  if bitLen > 64 then throw ⟨"fixed-size integers above 64 bits are not supported"⟩
  else readBitsInto width bitLen 0

/-- `BitReader::read_u8`. -/
def readU8 : Checked UInt8 := do
  let value ← readUint width 8
  pure (UInt8.ofNat value)

/-- `BitReader::read_u32`. -/
def readU32 : Checked ℕ := do
  let value ← readUint width 32
  pure (value % 2 ^ 32)

/-- `BitReader::read_bytes`. -/
def readBytes (len : ℕ) : Checked (List UInt8) := do
  let r ← get
  if r.bitPosition % 8 ≠ 0 then throw ⟨"byte reads require byte-aligned position"⟩
  else if len * 8 ≥ width.usize then throw ⟨"invalid read length"⟩
  else if r.remainingBits < len * 8 then throw ⟨"unexpected end of input"⟩
  else if r.position + len ≥ width.usize then throw ⟨"invalid read length"⟩
  else do
    let position ← ofOption (fits width.usize (r.bitPosition + len * 8))
    set { r with bitPosition := position }
    ofOption (slice r.bytes r.position (r.position + len))

/-- `BitReader::skip`. -/
def skip (len : ℕ) : Checked Unit := do
  let _ ← readBytes width len
  pure ()

/-- `BitReader::read_u32_le`. -/
def readU32Le : Checked ℕ := do
  let bytes ← readBytes width 4
  pure (ofLe bytes)

/-- `BitReader::read_var_uint`. -/
def readVarUint (size : ℕ) : Checked ℕ := do
  let bytes ← readBytes width size
  pure (ofBe bytes % width.usize)

/-- A number of reads of one kind. -/
def readMany (read : Checked α) : ℕ → Checked (List α)
  | 0 => pure []
  | n + 1 => do
    let a ← read
    let l ← readMany read n
    pure (a :: l)

/-- The result of a read whose error, if any, is replaced. -/
def orInvalid (message : String) (read : Checked α) : Checked α := fun r =>
  Option.map (fun result => result.mapError fun _ => invalid message) (read r)

/-! ## Raw cells and the header -/

/-- `RawCell::unpad_cell_bits`. -/
def unpadCellBits (data : List UInt8) (fullBytes : Bool) : Option (Option (List UInt8 × ℕ)) :=
  if data.isEmpty then some (some (data, 0))
  else do
    let bits ← fits width.usize (data.length * 8)
    if fullBytes then some (some (data, bits))
    else
      let zeros := trailingZeros ((data.getLast?).getD 0)
      if zeros ≥ 8 then some none
      else do
        let bitLen ← minus bits (zeros + 1)
        some (some (data.modify (data.length - 1) (· &&& ~~~(bitMask zeros)), bitLen))

/-- `RawCell::try_parse`. -/
def tryParseRawCell (refSize : ℕ) : Checked RawCell := do
  let refsDescriptor ← readU8 width
  let bitsDescriptor ← readU8 width
  let refCount := (refsDescriptor &&& 0b111).toNat
  if refsDescriptor &&& 0b1000 ≠ 0 ∨ refsDescriptor &&& 0b10000 ≠ 0 ∨ refsDescriptor >>> 5 ≠ 0 then
    throw (invalid "unsupported cell")
  else do
    let dataSize ← ofOption (fits (2 ^ 8) ((bitsDescriptor >>> 1).toNat + (bitsDescriptor &&& 1).toNat))
    let fullBytes := bitsDescriptor &&& 1 = 0
    let bytes ← readBytes width dataSize
    match ← ofOption (unpadCellBits width bytes fullBytes) with
    | none => throw (invalid "missing marker bit")
    | some (data, bitLen) => do
      let references ← readMany (readVarUint width refSize) refCount
      pure ⟨data, bitLen, references⟩

/-- `RawCell::parse`. -/
def parseRawCell (refSize : ℕ) : Checked RawCell :=
  orInvalid "invalid BoC cell" (tryParseRawCell width refSize)

/-- The reads of `BocHeader::try_parse`. -/
def readFields : Checked BocHeader.Fields := do
  let magic ← readU32 width
  if magic ≠ bocMagic then throw (invalid "magic")
  else do
    let flags ← readU8 width
    let refBytes := (flags &&& 0b111).toNat
    if refBytes = 0 ∨ refBytes > 4 then throw (invalid "reference size")
    else do
      let offset ← readU8 width
      let offBytes := offset.toNat
      if offBytes = 0 ∨ offBytes > 8 then throw (invalid "offset size")
      else do
        let cellsCount ← readVarUint width refBytes
        let rootsCount ← readVarUint width refBytes
        let absentCount ← readVarUint width refBytes
        let totalCellsSize ← readVarUint width offBytes
        pure ⟨flags, refBytes, offBytes, cellsCount, rootsCount, absentCount, totalCellsSize⟩

/-- `BocHeader::try_parse`. -/
def tryParseHeader : Checked BocHeader := do
  let fields ← readFields width
  if !fields.validRoots then throw (invalid "counts")
  else do
    let sum ← ofOption (fits width.usize (fields.rootsCount + fields.absentCount))
    if sum > fields.cellsCount then throw (invalid "counts") else pure fields.header

/-- `BocHeader::parse`. -/
def parseHeader : Checked BocHeader := orInvalid "invalid BoC header" (tryParseHeader width)

/-- `BocHeader::read_raw_cells`. -/
def readRawCells (header : BocHeader) : Checked (List RawCell) := do
  let start ← get
  let rawCells ← readMany (parseRawCell width header.refBytes) header.cellsCount
  let stop ← get
  if stop.position - start.position ≠ header.totalCellsSize then
    throw (invalid "BoC cell size does not match header")
  else pure rawCells

/-! ## Bags -/

variable (lib : HashLib)

/-- `validate_crc32c`. -/
def validateCrc32c (bytes : List UInt8) : Checked Unit := do
  let expected ← readU32Le width
  if bytes.length < 4 then throw (invalid "invalid BoC length")
  else do
    let payload ← ofOption (slice bytes 0 (bytes.length - 4))
    if expected ≠ (lib.crc32c payload).toNat then throw (invalid "invalid BoC crc32c")
    else pure ()

/-- The offsets of the cells, when there are any, are skipped. -/
def skipIndex (header : BocHeader) : Checked Unit :=
  if header.hasIdx then do
    let len ← ofOption (fits width.usize (header.cellsCount * header.offBytes))
    skip width len
  else pure ()

/-- The checksum, when there is one, is checked. -/
def checkCrc32c (header : BocHeader) (bytes : List UInt8) : Checked Unit :=
  if header.hasCrc32c then validateCrc32c width lib bytes else pure ()

/-- What `BagOfCells::parse` reads. -/
def readBag (bytes : List UInt8) : Checked (List RawCell × List ℕ) := do
  let header ← parseHeader width
  let rootIndexes ← readMany (readVarUint width header.refBytes) header.rootsCount
  skipIndex width header
  let rawCells ← readRawCells width header
  checkCrc32c width lib header bytes
  pure (rawCells, rootIndexes)

/-- `BagOfCells::parse`: what is done with what is read neither calculates nor leaves the bounds of its
loops. -/
def parse (bytes : List UInt8) : Option (Except TvmError BagOfCells) := do
  let bitLen ← fits width.usize (bytes.length * 8)
  let result ← readBag width lib bytes ⟨bytes, bitLen, 0⟩
  some (do
    let ((rawCells, rootIndexes), reader) ← result
    if reader.remaining ≠ 0 then .error (invalid "unexpected trailing BoC bytes")
    else do
      let cells ← buildCellTree lib rawCells
      let roots ← tryMap
        (fun index => okOr cells[index]? (invalid "BoC root out of bounds")) rootIndexes
      .ok ⟨roots⟩)

end Checked

/-! ## Covering -/

section

variable (width : PointerWidth)

/-- A reader in its input. -/
structure BitReader.InRange (r : BitReader) : Prop where
  bitLen_eq : r.bitLen = r.bytes.length * 8
  bitLen_lt : r.bitLen < width.usize
  bitPosition_le : r.bitPosition ≤ r.bitLen

/-- A read does not panic at a reader and returns what the unchecked read returns: an error, or a
value of a kind with a reader in its input. -/
def CoversAt {α : Type} (checked : Checked α) (read : Read α) (P : α → Prop) (r : BitReader) : Prop :=
  checked r = some (read r) ∧ ∀ a r', read r = .ok (a, r') → r'.InRange width ∧ P a

/-- In its input, a read never panics and returns what the unchecked read returns. -/
def Covers {α : Type} (checked : Checked α) (read : Read α) (P : α → Prop) : Prop :=
  ∀ r : BitReader, r.InRange width → CoversAt width checked read P r

end

variable {width : PointerWidth}

namespace CoversAt

variable {α β : Type} {checked : Checked α} {read : Read α} {P : α → Prop} {r : BitReader}

/-- A read, and what comes behind it. -/
lemma bind {Q : β → Prop} {next : α → Checked β} {next' : α → Read β}
    (h : CoversAt width checked read P r) (hnext : ∀ a, P a → Covers width (next a) (next' a) Q) :
    CoversAt width (checked >>= next) (read >>= next') Q r := by
  obtain ⟨hrun, hok⟩ := h
  cases hread : read r with
  | error e =>
    have hchecked : (checked >>= next) r = some (.error e) := by
      change Option.bind (checked r) _ = _
      rw [hrun, hread]
      rfl
    have hunchecked : (read >>= next') r = .error e := by
      change Except.bind (read r) _ = _
      rw [hread]
      rfl
    rw [CoversAt, hchecked, hunchecked]
    exact ⟨rfl, fun _ _ h' => nomatch h'⟩
  | ok result =>
    obtain ⟨a, r'⟩ := result
    obtain ⟨hr', ha⟩ := hok a r' hread
    have hchecked : (checked >>= next) r = next a r' := by
      change Option.bind (checked r) _ = _
      rw [hrun, hread]
      rfl
    have hunchecked : (read >>= next') r = next' a r' := by
      change Except.bind (read r) _ = _
      rw [hread]
      rfl
    rw [CoversAt, hchecked, hunchecked]
    exact hnext a ha r' hr'

lemma orInvalid (message : String) (h : CoversAt width checked read P r) :
    CoversAt width (Checked.orInvalid message checked) (Ton.orInvalid message read) P r := by
  obtain ⟨hrun, hok⟩ := h
  refine ⟨by rw [Checked.orInvalid, hrun]; rfl, fun a r' h' => ?_⟩
  exact hok a r' (mapError_eq_ok_iff.mp h')

end CoversAt

namespace Covers

variable {α β : Type} {checked : Checked α} {read : Read α} {P : α → Prop}

lemma pure {a : α} (h : P a) : Covers width (Pure.pure a) (Pure.pure a) P := by
  intro r hr
  refine ⟨rfl, fun a' r' h' => ?_⟩
  cases h'
  exact ⟨hr, h⟩

lemma throw (e : TvmError) (P : α → Prop) : Covers width (MonadExcept.throw e) (MonadExcept.throw e) P :=
  fun _ _ => ⟨rfl, fun _ _ h => nomatch h⟩

lemma get {next : BitReader → Checked α} {next' : BitReader → Read α}
    (h : ∀ r : BitReader, r.InRange width → Covers width (next r) (next' r) P) :
    Covers width (MonadState.get >>= next) (MonadState.get >>= next') P :=
  fun r hr => h r hr r hr

/-- Reads in sequence. -/
lemma bind {Q : β → Prop} {next : α → Checked β} {next' : α → Read β}
    (h : Covers width checked read P) (hnext : ∀ a, P a → Covers width (next a) (next' a) Q) :
    Covers width (checked >>= next) (read >>= next') Q :=
  fun r hr => (h r hr).bind hnext

/-- An operation that does not panic. -/
lemma ofOption {Q : β → Prop} {o : Option α} {a : α} {next : α → Checked β} {read : Read β}
    (ho : o = some a) (h : Covers width (next a) read Q) :
    Covers width (Checked.ofOption o >>= next) read Q := by
  subst ho
  exact h

lemma orInvalid (message : String) (h : Covers width checked read P) :
    Covers width (Checked.orInvalid message checked) (Ton.orInvalid message read) P :=
  fun r hr => (h r hr).orInvalid message

/-- As many reads as are asked for. -/
lemma many (h : Covers width checked read P) (n : ℕ) :
    Covers width (Checked.readMany checked n) (readMany read n) fun l => l.length = n ∧ ∀ a ∈ l, P a := by
  induction n with
  | zero => exact Covers.pure ⟨rfl, by simp⟩
  | succ n ih =>
    refine h.bind fun a ha => ih.bind fun l hl => Covers.pure ⟨?_, ?_⟩
    · rw [List.length_cons, hl.1]
    · exact List.forall_mem_cons.mpr ⟨ha, hl.2⟩

end Covers

namespace Checked

/-- A byte of the input is not out of bounds. -/
lemma covers_readBit : Covers width (readBit width) Ton.readBit fun _ => True := by
  intro r hr
  have hlen := hr.bitLen_eq
  have hlt := hr.bitLen_lt
  unfold CoversAt Ton.readBit
  by_cases hend : r.bitPosition ≥ r.bitLen
  · have hrun : readBit width r = some (.error ⟨"unexpected end of input"⟩) := by
      change (if r.bitPosition ≥ r.bitLen then (throw _ : Checked Bool) else _) r = _
      rw [if_pos hend]
      rfl
    rw [if_pos hend, hrun]
    exact ⟨rfl, fun _ _ h => nomatch h⟩
  · have hbyte : r.bitPosition / 8 < r.bytes.length := by omega
    have hshift : minus 7 (r.bitPosition % 8) = some (7 - r.bitPosition % 8) := if_pos (by omega)
    have hposition : fits width.usize (r.bitPosition + 1) = some (r.bitPosition + 1) := if_pos (by omega)
    have hrun : readBit width r = some (.ok ((r.bytes[r.bitPosition / 8]).toNat.testBit
        (7 - r.bitPosition % 8), { r with bitPosition := r.bitPosition + 1 })) := by
      change (if r.bitPosition ≥ r.bitLen then (throw _ : Checked Bool) else _) r = _
      rw [if_neg hend, List.getElem?_eq_getElem hbyte, hshift, hposition]
      rfl
    rw [if_neg hend, hrun, List.getD_eq_getElem _ _ hbyte]
    refine ⟨rfl, fun a r' h => ?_⟩
    cases h
    exact ⟨⟨hlen, hlt, by show r.bitPosition + 1 ≤ r.bitLen; omega⟩, trivial⟩

lemma covers_readBitsInto (n value : ℕ) :
    Covers width (readBitsInto width n value) (Ton.readBitsInto n value) fun _ => True := by
  induction n generalizing value with
  | zero => exact Covers.pure trivial
  | succ n ih => exact covers_readBit.bind fun bit _ => ih _

lemma covers_readUint (bitLen : ℕ) :
    Covers width (readUint width bitLen) (Ton.readUint bitLen) fun _ => True := by
  unfold readUint Ton.readUint
  split_ifs
  · exact Covers.throw _ _
  · exact covers_readBitsInto _ _

lemma covers_readU8 : Covers width (readU8 width) Ton.readU8 fun _ => True :=
  (covers_readUint 8).bind fun _ _ => Covers.pure trivial

lemma covers_readU32 : Covers width (readU32 width) Ton.readU32 fun _ => True :=
  (covers_readUint 32).bind fun _ _ => Covers.pure trivial

/-- A slice of the input is not out of bounds. -/
lemma covers_readBytes (len : ℕ) :
    Covers width (readBytes width len) (Ton.readBytes width len) fun bytes => bytes.length = len := by
  intro r hr
  have hlen := hr.bitLen_eq
  have hlt := hr.bitLen_lt
  have hle := hr.bitPosition_le
  have hunfold : readBytes width len r = (if r.bitPosition % 8 ≠ 0 then
        throw ⟨"byte reads require byte-aligned position"⟩
      else if len * 8 ≥ width.usize then throw ⟨"invalid read length"⟩
      else if r.remainingBits < len * 8 then throw ⟨"unexpected end of input"⟩
      else if r.position + len ≥ width.usize then throw ⟨"invalid read length"⟩
      else do
        let position ← ofOption (fits width.usize (r.bitPosition + len * 8))
        set { r with bitPosition := position }
        ofOption (slice r.bytes r.position (r.position + len)) : Checked (List UInt8)) r := rfl
  rw [CoversAt, hunfold]
  unfold Ton.readBytes
  split_ifs with haligned hoverflow hremaining hend
  · exact ⟨rfl, fun _ _ h => nomatch h⟩
  · exact ⟨rfl, fun _ _ h => nomatch h⟩
  · exact ⟨rfl, fun _ _ h => nomatch h⟩
  · exact ⟨rfl, fun _ _ h => nomatch h⟩
  · unfold BitReader.remainingBits at hremaining
    have hposition : fits width.usize (r.bitPosition + len * 8) = some (r.bitPosition + len * 8) :=
      if_pos (by omega)
    have hinside : r.position + len ≤ r.bytes.length := by
      unfold BitReader.position
      omega
    have hslice : slice r.bytes r.position (r.position + len) =
        some ((r.bytes.drop r.position).take len) := by
      rw [slice, if_pos ⟨Nat.le_add_right _ _, hinside⟩, Nat.add_sub_cancel_left]
    rw [hposition, hslice]
    refine ⟨rfl, fun a r' h => ?_⟩
    cases h
    refine ⟨⟨hlen, hlt, ?_⟩, ?_⟩
    · show r.bitPosition + len * 8 ≤ r.bitLen
      omega
    · show ((r.bytes.drop r.position).take len).length = len
      rw [List.length_take, List.length_drop]
      omega

lemma covers_skip (len : ℕ) : Covers width (skip width len) (Ton.skip width len) fun _ => True :=
  (covers_readBytes len).bind fun _ _ => Covers.pure trivial

lemma covers_readU32Le : Covers width (readU32Le width) (Ton.readU32Le width) fun _ => True :=
  (covers_readBytes 4).bind fun _ _ => Covers.pure trivial

lemma covers_readVarUint (size : ℕ) :
    Covers width (readVarUint width size) (Ton.readVarUint width size) fun n => n < 256 ^ size := by
  refine (covers_readBytes size).bind fun bytes hlength => Covers.pure ?_
  have hlt := ofBe_lt bytes
  rw [hlength] at hlt
  exact (Nat.mod_le _ _).trans_lt hlt

/-- The sum of the parts of the second descriptor fits a byte. -/
lemma fits_dataSize (d : UInt8) :
    fits (2 ^ 8) ((d >>> 1).toNat + (d &&& 1).toNat) = some ((d >>> 1) + (d &&& 1)).toNat := by
  have hall : ∀ n : Fin 256,
      fits (2 ^ 8) ((UInt8.ofNat n.val >>> 1).toNat + (UInt8.ofNat n.val &&& 1).toNat) =
        some ((UInt8.ofNat n.val >>> 1) + (UInt8.ofNat n.val &&& 1)).toNat := by
    decide +kernel
  have hd := hall ⟨d.toNat, d.toNat_lt⟩
  rwa [UInt8.ofNat_toNat] at hd

/-- The number of bits in the data of a cell is calculated without an overflow. -/
theorem unpadCellBits_eq {data : List UInt8} (h : data.length < 256) (fullBytes : Bool) :
    unpadCellBits width data fullBytes = some (Ton.unpadCellBits data fullBytes) := by
  have hfits : fits width.usize (data.length * 8) = some (data.length * 8) :=
    if_pos (by have := width.le_usize; omega)
  unfold unpadCellBits Ton.unpadCellBits
  by_cases hempty : data.isEmpty = true
  · rw [if_pos hempty, if_pos hempty]
  · have hpos : 0 < data.length := by
      rw [List.isEmpty_iff] at hempty
      exact List.length_pos_iff.mpr hempty
    rw [if_neg hempty, if_neg hempty, hfits, Option.bind_eq_bind, Option.bind_some]
    cases fullBytes with
    | true => rfl
    | false =>
      simp only [Bool.false_eq_true, if_false]
      by_cases hzeros : trailingZeros ((data.getLast?).getD 0) ≥ 8
      · rw [if_pos hzeros, if_pos hzeros]
      · have hminus : minus (data.length * 8) (trailingZeros ((data.getLast?).getD 0) + 1) =
            some (data.length * 8 - (trailingZeros ((data.getLast?).getD 0) + 1)) :=
          if_pos (by omega)
        rw [if_neg hzeros, if_neg hzeros, hminus, Option.bind_some]

/-- **A raw cell** is read without a panic, and its padding is zero. -/
theorem covers_parseRawCell (refSize : ℕ) :
    Covers width (parseRawCell width refSize) (RawCell.parse width refSize)
      fun raw => ZeroPadded raw.data raw.bitLen := by
  apply Covers.orInvalid
  refine covers_readU8.bind fun refsDescriptor _ => covers_readU8.bind fun bitsDescriptor _ => ?_
  dsimp only
  split_ifs
  · exact Covers.throw _ _
  · refine Covers.ofOption (fits_dataSize bitsDescriptor) ?_
    refine (covers_readBytes _).bind fun bytes hlength => ?_
    refine Covers.ofOption (unpadCellBits_eq (hlength.le.trans_lt (UInt8.toNat_lt _)) _) ?_
    cases hunpad : Ton.unpadCellBits bytes (bitsDescriptor &&& 1 = 0) with
    | none => exact Covers.throw _ _
    | some result =>
      exact ((covers_readVarUint refSize).many _).bind fun _ _ =>
        Covers.pure (zeroPadded_of_unpadCellBits hunpad)

/-- What is checked of a header. -/
structure HeaderInRange (header : BocHeader) : Prop where
  offBytes_le : header.offBytes ≤ 8
  cellsCount_le : header.cellsCount ≤ 4096
  rootsCount_pos : 0 < header.rootsCount
  rootsCount_le : header.rootsCount ≤ header.cellsCount

/-- **The fields of a header** are read without a panic. -/
theorem covers_readFields :
    Covers width (readFields width) (BocHeader.readFields width) fun fields =>
      fields.offBytes ≤ 8 ∧ fields.rootsCount < 256 ^ 4 ∧ fields.absentCount < 256 ^ 4 := by
  refine covers_readU32.bind fun magic _ => ?_
  split_ifs
  · exact Covers.throw _ _
  refine covers_readU8.bind fun flags _ => ?_
  dsimp only
  split_ifs with hrefs
  · exact Covers.throw _ _
  refine covers_readU8.bind fun offset _ => ?_
  split_ifs with hoff
  · exact Covers.throw _ _
  have hpow : 256 ^ (flags &&& 0b111).toNat ≤ 256 ^ 4 :=
    Nat.pow_le_pow_right (by decide) (by omega)
  refine (covers_readVarUint _).bind fun cellsCount _ => (covers_readVarUint _).bind fun rootsCount hroots =>
    (covers_readVarUint _).bind fun absentCount habsent => (covers_readVarUint _).bind fun total _ => ?_
  exact Covers.pure ⟨by show offset.toNat ≤ 8; omega, hroots.trans_le hpow, habsent.trans_le hpow⟩

/-- What is accepted of a header. -/
lemma inRange_parseHeader {r r' : BitReader} (hr : r.InRange width) {header : BocHeader}
    (h : BocHeader.parse width r = .ok (header, r')) : r'.InRange width ∧ HeaderInRange header := by
  obtain ⟨⟨fields, r₁⟩, hread, hend⟩ := bind_eq_ok_iff.mp (mapError_eq_ok_iff.mp h)
  obtain ⟨hr₁, hoff, -⟩ := (covers_readFields r hr).2 fields r₁ hread
  dsimp only at hend
  by_cases hvalid : fields.validCounts width = true
  · rw [hvalid] at hend
    cases hend
    simp [BocHeader.Fields.validCounts, BocHeader.Fields.validRoots, maxCells] at hvalid
    exact ⟨hr₁, hoff, by show fields.cellsCount ≤ 4096; omega,
      by show 0 < fields.rootsCount; omega, by show fields.rootsCount ≤ fields.cellsCount; omega⟩
  · rw [Bool.not_eq_true] at hvalid
    rw [hvalid] at hend
    cases hend

/-- **The header** is read without a panic when the sum of its counts fits. -/
theorem coversAt_parseHeader {r : BitReader} (hr : r.InRange width) (hsum : BocHeader.sumFits width r) :
    CoversAt width (parseHeader width) (BocHeader.parse width) HeaderInRange r := by
  suffices hcover : CoversAt width (tryParseHeader width) (BocHeader.tryParse width) (fun _ => True) r from
    ⟨(hcover.orInvalid _).1, fun header r' => inRange_parseHeader hr⟩
  obtain ⟨hrun, hok⟩ := covers_readFields r hr
  refine CoversAt.bind (P := fun fields => fields.sumFits width = true)
    ⟨hrun, fun fields r' hread => ⟨(hok fields r' hread).1, ?_⟩⟩ fun fields hfits => ?_
  · rwa [BocHeader.sumFits, hread] at hsum
  cases hvalid : fields.validRoots with
  | false =>
    simp only [BocHeader.Fields.validCounts, hvalid, Bool.false_and, Bool.not_false, if_true]
    exact Covers.throw _ _
  | true =>
    have hlt : fields.rootsCount + fields.absentCount < width.usize := by
      simpa [BocHeader.Fields.sumFits, hvalid] using hfits
    simp only [BocHeader.Fields.validCounts, hvalid, Bool.true_and, Bool.not_true,
      Bool.false_eq_true, if_false, Nat.mod_eq_of_lt hlt]
    refine Covers.ofOption (if_pos hlt) ?_
    by_cases hcounts : fields.rootsCount + fields.absentCount > fields.cellsCount
    · simp only [hcounts, decide_true, Bool.not_true, Bool.not_false, if_true]
      exact Covers.throw _ _
    · simp only [hcounts, decide_false, Bool.not_false, Bool.not_true, Bool.false_eq_true, if_false]
      exact Covers.pure trivial

/-- When the sum of the counts does not fit, the header panics. -/
lemma parseHeader_eq_none {r : BitReader} (hr : r.InRange width)
    (hsum : BocHeader.sumFits width r = false) : parseHeader width r = none := by
  obtain ⟨hrun, -⟩ := covers_readFields r hr
  rw [BocHeader.sumFits] at hsum
  cases hread : BocHeader.readFields width r with
  | error e =>
    rw [hread] at hsum
    cases hsum
  | ok result =>
    obtain ⟨fields, r'⟩ := result
    rw [hread] at hrun hsum
    simp only [BocHeader.Fields.sumFits, Bool.or_eq_false_iff, Bool.not_eq_false',
      decide_eq_false_iff_not] at hsum
    have hnone : tryParseHeader width r = none := by
      change Option.bind (readFields width r) _ = _
      rw [hrun]
      change (if (!fields.validRoots) = true then (throw _ : Checked BocHeader) else _) r' = _
      rw [hsum.1, fits, if_neg hsum.2]
      rfl
    rw [parseHeader, orInvalid, hnone]
    rfl

/-- The raw cells are read without a panic. -/
lemma covers_readRawCells (header : BocHeader) :
    Covers width (readRawCells width header) (header.readRawCells width) fun raws =>
      raws.length = header.cellsCount ∧ ∀ raw ∈ raws, ZeroPadded raw.data raw.bitLen := by
  refine Covers.get fun start _ => ?_
  refine ((covers_parseRawCell header.refBytes).many header.cellsCount).bind fun raws hraws => ?_
  refine Covers.get fun stop _ => ?_
  split_ifs
  · exact Covers.throw _ _
  · exact @Covers.pure _ _ _ raws hraws

variable (lib : HashLib)

/-- The payload is a slice of the input. -/
lemma covers_validateCrc32c (bytes : List UInt8) :
    Covers width (validateCrc32c width lib bytes) (Ton.validateCrc32c width lib bytes) fun _ => True := by
  refine covers_readU32Le.bind fun expected _ => ?_
  by_cases hlength : bytes.length < 4
  · rw [if_pos hlength, if_pos hlength]
    exact Covers.throw _ _
  · have hslice : slice bytes 0 (bytes.length - 4) = some (bytes.take (bytes.length - 4)) := by
      rw [slice, if_pos ⟨Nat.zero_le _, Nat.sub_le _ _⟩, List.drop_zero, Nat.sub_zero]
    rw [if_neg hlength, if_neg hlength]
    refine Covers.ofOption hslice ?_
    split_ifs
    · exact Covers.throw _ _
    · exact Covers.pure trivial

lemma covers_checkCrc32c (header : BocHeader) (bytes : List UInt8) :
    Covers width (checkCrc32c width lib header bytes) (header.checkCrc32c width lib bytes) fun _ => True := by
  unfold checkCrc32c BocHeader.checkCrc32c
  split_ifs
  · exact covers_validateCrc32c lib bytes
  · exact Covers.pure trivial

/-- The size of the offsets is calculated without an overflow. -/
lemma covers_skipIndex {header : BocHeader} (h : HeaderInRange header) :
    Covers width (skipIndex width header) (header.skipIndex width) fun _ => True := by
  have hle : header.cellsCount * header.offBytes ≤ 4096 * 8 :=
    Nat.mul_le_mul h.cellsCount_le h.offBytes_le
  have hfits : fits width.usize (header.cellsCount * header.offBytes) =
      some (header.cellsCount * header.offBytes) := if_pos (by have := width.le_usize; omega)
  unfold skipIndex BocHeader.skipIndex
  split_ifs
  · exact Covers.ofOption hfits (covers_skip _)
  · exact Covers.pure trivial

/-- **What is read of a bag** is read without a panic: at most 4096 cells with zero padding, and a
root. -/
theorem coversAt_readBag (bytes : List UInt8) {r : BitReader} (hr : r.InRange width)
    (hsum : BocHeader.sumFits width r) :
    CoversAt width (readBag width lib bytes) (Ton.readBag width lib bytes) (fun result =>
      result.1.length ≤ 4096 ∧ (∀ raw ∈ result.1, ZeroPadded raw.data raw.bitLen) ∧
        result.2 ≠ []) r := by
  refine (coversAt_parseHeader hr hsum).bind fun header hheader => ?_
  refine ((covers_readVarUint _).many _).bind fun rootIndexes hroots => ?_
  refine (covers_skipIndex hheader).bind fun _ _ => ?_
  refine (covers_readRawCells header).bind fun rawCells hraws => ?_
  refine (covers_checkCrc32c lib header bytes).bind fun _ _ => Covers.pure ⟨?_, hraws.2, ?_⟩
  · exact hraws.1.le.trans hheader.cellsCount_le
  · exact List.ne_nil_of_length_pos (hroots.1 ▸ hheader.rootsCount_pos)

/-- The bits of an input and the counts in its header can be added. -/
def SumsFit (width : PointerWidth) (bytes : List UInt8) : Prop :=
  bytes.length * 8 < width.usize ∧ BocHeader.sumFits width (BitReader.new width bytes)

instance (bytes : List UInt8) : Decidable (SumsFit width bytes) :=
  inferInstanceAs (Decidable (_ ∧ _))

/-- The reader of an input is in it. -/
lemma inRange_new {bytes : List UInt8} (h : bytes.length * 8 < width.usize) :
    (BitReader.new width bytes).InRange width := by
  have hmod := Nat.mod_eq_of_lt h
  exact ⟨hmod, hmod.trans_lt h, Nat.zero_le _⟩

/-- **No panic**: when the sums fit, the parser calculates without an overflow and reads in its input;
else it panics. -/
theorem parse_eq (width : PointerWidth) (bytes : List UInt8) :
    parse width lib bytes =
      if SumsFit width bytes then some (BagOfCells.parse width lib bytes) else none := by
  unfold parse fits
  by_cases hbits : bytes.length * 8 < width.usize
  · rw [if_pos hbits, Option.bind_eq_bind, Option.bind_some]
    have hnew : (⟨bytes, bytes.length * 8, 0⟩ : BitReader) = BitReader.new width bytes := by
      rw [BitReader.new, Nat.mod_eq_of_lt hbits]
    rw [hnew]
    change Option.bind (readBag width lib bytes (BitReader.new width bytes)) _ = _
    cases hsum : BocHeader.sumFits width (BitReader.new width bytes) with
    | true =>
      have hrun := (coversAt_readBag lib bytes (inRange_new hbits) hsum).1
      rw [if_pos ⟨hbits, hsum⟩, hrun, Option.bind_some]
      rfl
    | false =>
      have hnone : readBag width lib bytes (BitReader.new width bytes) = none := by
        change Option.bind (parseHeader width _) _ = _
        rw [parseHeader_eq_none (inRange_new hbits) hsum]
        rfl
      rw [if_neg (fun h => by simp [SumsFit, hsum] at h), hnone]
      rfl
  · rw [if_neg hbits, if_neg (fun h => hbits h.1)]
    rfl

/-- With pointers of 64 bits every sum of two counts fits. -/
lemma sumsFit_bits64 (bytes : List UInt8) : SumsFit .bits64 bytes ↔ bytes.length < 2 ^ 61 := by
  have hiff : bytes.length * 8 < PointerWidth.usize .bits64 ↔ bytes.length < 2 ^ 61 := by
    show _ < 2 ^ 64 ↔ _
    omega
  refine ⟨fun h => hiff.mp h.1, fun h => ⟨hiff.mpr h, ?_⟩⟩
  have hok := (covers_readFields _ (inRange_new (hiff.mpr h))).2
  rw [BocHeader.sumFits]
  split
  case h_1 fields r hread =>
    have hfields := (hok fields r hread).2.2
    have hlt : fields.rootsCount + fields.absentCount < PointerWidth.usize .bits64 := by
      show _ < 2 ^ 64
      omega
    rw [BocHeader.Fields.sumFits, decide_eq_true hlt, Bool.or_true]
  case h_2 => rfl

end Checked

end GemCore.Ton
