import GemCore.Ton.Builder
import GemCore.Ton.Reader

/-!
# Cells as bits

What the calls of the builder append to a cell and what the calls of the reader take from it, as
lists of bits, the highest bit of a byte first. Here nothing has to start at a whole byte.

## Main definitions

* `bitsOf` — the bits of some bytes.
* `Emits` — a call of the builder appends some bits.
* `Takes` — a call of the reader takes some bits and returns a value.

## Main results

* `BitWriter.bits_push` — one more bit.
* `emits_storeU8`, `emits_storeSlice` — numbers and bytes.
* `takes_readUint`, `takes_readArray` — the same numbers and bytes back.
* `Emits.build` — a cell that is built of calls has their bits.
-/

namespace GemCore.Ton

/-! ## Bits of bytes -/

/-- A bit of some bytes. -/
def bitAt (bytes : List UInt8) (i : ℕ) : Bool := (bytes.getD (i / 8) 0).toNat.testBit (7 - i % 8)

/-- The first bits of some bytes. -/
def bitsOf (bytes : List UInt8) (bitLen : ℕ) : List Bool := (List.range bitLen).map (bitAt bytes)

@[simp] lemma length_bitsOf (bytes : List UInt8) (bitLen : ℕ) :
    (bitsOf bytes bitLen).length = bitLen := by
  rw [bitsOf, List.length_map, List.length_range]

@[simp] lemma length_lowBits (bitLen value : ℕ) : (lowBits bitLen value).length = bitLen := by
  rw [lowBits, List.length_map, List.length_reverse, List.length_range]

/-- The bits of a number, the highest first. -/
lemma lowBits_succ (bitLen value : ℕ) :
    lowBits (bitLen + 1) value = value.testBit bitLen :: lowBits bitLen value := by
  rw [lowBits, List.range_succ, List.reverse_append, List.reverse_singleton,
    List.singleton_append, List.map_cons, lowBits]

/-- The bits of whole bytes, one byte after the other. -/
lemma bitsOf_bytes (bytes : List UInt8) :
    bitsOf bytes (bytes.length * 8) = bytes.flatMap fun b => lowBits 8 b.toNat := by
  induction bytes with
  | nil => rfl
  | cons b bytes ih =>
    have hlength : (b :: bytes).length * 8 = 8 + bytes.length * 8 := by
      rw [List.length_cons]
      omega
    have hfirst : (List.range 8).map (bitAt (b :: bytes)) = lowBits 8 b.toNat := rfl
    have hrest : ((List.range (bytes.length * 8)).map (8 + ·)).map (bitAt (b :: bytes)) =
        bitsOf bytes (bytes.length * 8) := by
      rw [List.map_map]
      refine List.map_congr_left fun i _ => ?_
      have hdiv : (8 + i) / 8 = i / 8 + 1 := by omega
      have hmod : (8 + i) % 8 = i % 8 := by omega
      rw [Function.comp_apply, bitAt, bitAt, hdiv, hmod, List.getD_cons_succ]
    rw [hlength, bitsOf, List.range_add, List.map_append, hfirst, hrest, ih, List.flatMap_cons]

/-! ## What is written -/

namespace BitWriter

/-- The bits written so far. -/
def bits (w : BitWriter) : List Bool := bitsOf w.bytes w.bitLen

/-- There are as many bytes as the bits take, and the last one is filled up with zeros. -/
structure Padded (w : BitWriter) : Prop where
  length_bytes : w.bytes.length = bytesFor w.bitLen
  zeroPadded : ZeroPadded w.bytes w.bitLen

variable {w : BitWriter}

/-- The bit behind the last one is zero. -/
lemma Padded.bitAt_bitLen (h : w.Padded) : bitAt w.bytes w.bitLen = false := by
  have hlength := h.length_bytes
  rw [bytesFor] at hlength
  rw [bitAt]
  by_cases hfull : w.bitLen % 8 = 0
  · rw [List.getD_eq_default _ _ (by omega)]
    exact Nat.zero_testBit _
  · have hne : w.bytes ≠ [] := by
      intro hnil
      rw [hnil, List.length_nil] at hlength
      omega
    have hlast := h.zeroPadded (w.bytes.getLast hne)
      (by simp [List.getLast?_eq_getLast_of_ne_nil hne])
    have hexp : 8 * w.bytes.length - w.bitLen = 7 - w.bitLen % 8 + 1 := by omega
    have hindex : w.bytes.getD (w.bitLen / 8) 0 = w.bytes.getLast hne := by
      rw [List.getLast_eq_getElem, List.getD_eq_getElem _ _ (by omega)]
      congr 1
      omega
    rw [hindex]
    have hmod := Nat.testBit_mod_two_pow (w.bytes.getLast hne).toNat (7 - w.bitLen % 8 + 1)
      (7 - w.bitLen % 8)
    rw [← hexp, hlast, Nat.zero_testBit] at hmod
    rw [hexp] at hmod
    simpa using hmod.symm

/-- A pushed bit changes no other bit. -/
lemma bitAt_push (h : w.Padded) (value : Bool) {i : ℕ} (hi : i ≤ w.bitLen) :
    bitAt (w.push value).bytes i = if i = w.bitLen then value else bitAt w.bytes i := by
  have hlength := h.length_bytes
  rw [bytesFor] at hlength
  have hlast := h.bitAt_bitLen
  -- an appended zero byte is what the default of a missing byte is
  have happend : ∀ j, (if w.bitLen % 8 = 0 then w.bytes ++ [0] else w.bytes).getD j 0 =
      w.bytes.getD j 0 := by
    intro j
    split
    · rcases Nat.lt_trichotomy j w.bytes.length with hj | hj | hj
      · rw [List.getD_append _ _ _ _ hj]
      · subst hj
        rw [List.getD_append_right _ _ _ _ le_rfl, Nat.sub_self,
          List.getD_eq_default _ _ le_rfl, List.getD_cons_zero]
      · rw [List.getD_eq_default _ _ (by simp; omega), List.getD_eq_default _ _ (by omega)]
    · rfl
  cases value with
  | false =>
    have hbytes : (w.push false).bytes = if w.bitLen % 8 = 0 then w.bytes ++ [0] else w.bytes := rfl
    rw [bitAt, hbytes, happend]
    split
    case isTrue heq =>
      subst heq
      exact hlast
    case isFalse => rfl
  | true =>
    have hbytes : (w.push true).bytes = (if w.bitLen % 8 = 0 then w.bytes ++ [0] else
        w.bytes).modify (w.bitLen / 8) (· ||| bitMask (7 - w.bitLen % 8)) := rfl
    have hroom : w.bitLen / 8 <
        (if w.bitLen % 8 = 0 then w.bytes ++ [0] else w.bytes).length := by
      split
      · rw [List.length_append, List.length_singleton]
        omega
      · omega
    have hmask : (bitMask (7 - w.bitLen % 8)).toNat = 2 ^ (7 - w.bitLen % 8) := by
      have hlt : 2 ^ (7 - w.bitLen % 8) < 2 ^ 8 := Nat.pow_lt_pow_right (by decide) (by omega)
      rw [bitMask, UInt8.toNat_ofNat']
      exact Nat.mod_eq_of_lt hlt
    by_cases hbyte : i / 8 = w.bitLen / 8
    · have hget : (w.push true).bytes.getD (i / 8) 0 =
          w.bytes.getD (i / 8) 0 ||| bitMask (7 - w.bitLen % 8) := by
        rw [hbytes, hbyte, ← happend, List.getD_eq_getElem?_getD, List.getElem?_modify_eq,
          List.getD_eq_getElem?_getD, List.getElem?_eq_getElem hroom]
        rfl
      rw [bitAt, hget, UInt8.toNat_or, Nat.testBit_or, hmask, Nat.testBit_two_pow]
      split
      case isTrue heq =>
        rw [heq]
        simp
      case isFalse hne =>
        have hdistinct : ¬ 7 - w.bitLen % 8 = 7 - i % 8 := by omega
        rw [decide_eq_false hdistinct, Bool.or_false, bitAt]
    · have hget : (w.push true).bytes.getD (i / 8) 0 = w.bytes.getD (i / 8) 0 := by
        rw [hbytes, ← happend, List.getD_eq_getElem?_getD,
          List.getElem?_modify_ne _ _ (Ne.symm hbyte), ← List.getD_eq_getElem?_getD]
      have hne : i ≠ w.bitLen := fun heq => hbyte (by rw [heq])
      rw [bitAt, hget, if_neg hne, bitAt]

/-- **One more bit.** -/
theorem bits_push (h : w.Padded) (value : Bool) : (w.push value).bits = w.bits ++ [value] := by
  have hbitLen : (w.push value).bitLen = w.bitLen + 1 := rfl
  rw [bits, bits, bitsOf, bitsOf, hbitLen, List.range_succ, List.map_append, List.map_singleton,
    bitAt_push h value le_rfl, if_pos rfl]
  congr 1
  refine List.map_congr_left fun i hi => ?_
  have hlt := List.mem_range.mp hi
  rw [bitAt_push h value hlt.le, if_neg hlt.ne]

lemma Padded.push (h : w.Padded) (value : Bool) : (w.push value).Padded :=
  let ⟨hlength, hzero⟩ := BitWriter.push_padded value h.length_bytes h.zeroPadded
  ⟨hlength, hzero⟩

@[simp] lemma length_bits (w : BitWriter) : w.bits.length = w.bitLen := length_bitsOf _ _

end BitWriter

/-- A call of the builder appends some bits, where the cell has room for them. -/
def Emits (call : Build Unit) (bits : List Bool) : Prop :=
  ∀ b : CellBuilder, b.writer.Padded → b.writer.bitLen + bits.length ≤ maxCellBits →
    ∃ w : BitWriter, call b = .ok () { b with writer := w } ∧ w.Padded ∧
      w.bits = b.writer.bits ++ bits

section Emits

variable {call call' : Build Unit} {bits bits' : List Bool}

lemma emits_nil : Emits (pure ()) [] := fun b hb _ => ⟨b.writer, rfl, hb, (List.append_nil _).symm⟩

lemma emits_writeBit (value : Bool) : Emits (writeBit value) [value] := by
  intro b hb hroom
  rw [List.length_singleton] at hroom
  exact ⟨b.writer.push value, if_neg (by omega), hb.push value, BitWriter.bits_push hb value⟩

/-- Two calls, one after the other. -/
lemma Emits.seq (h : Emits call bits) (h' : Emits call' bits') :
    Emits (call >>= fun _ => call') (bits ++ bits') := by
  intro b hb hroom
  rw [List.length_append] at hroom
  obtain ⟨w, hcall, hw, hbits⟩ := h b hb (by omega)
  have hlength : w.bitLen = b.writer.bitLen + bits.length := by
    rw [← BitWriter.length_bits w, hbits, List.length_append, BitWriter.length_bits]
  obtain ⟨w', hcall', hw', hbits'⟩ := h' { b with writer := w } hw (by
    show w.bitLen + bits'.length ≤ maxCellBits
    omega)
  refine ⟨w', ?_, hw', by rw [hbits', hbits, List.append_assoc]⟩
  show EStateM.bind call (fun _ => call') b = _
  rw [EStateM.bind, hcall]
  exact hcall'

lemma emits_writeAll (bits : List Bool) : Emits (writeAll bits) bits := by
  induction bits with
  | nil => exact emits_nil
  | cons bit bits ih => exact (emits_writeBit bit).seq ih

/-- A number that fits is written as its low bits. -/
lemma emits_writeUint {bitLen value : ℕ} (hle : bitLen ≤ 64) (h : value < 2 ^ bitLen) :
    Emits (writeUint bitLen value) (lowBits bitLen value) := by
  have hshift : value >>> bitLen = 0 := by
    rw [Nat.shiftRight_eq_div_pow, Nat.div_eq_of_lt h]
  rw [writeUint, if_neg (by omega), if_neg (fun hfits => hfits.2 hshift)]
  exact emits_writeAll _

lemma emits_storeU8 {bitLen : ℕ} {value : UInt8} (hle : bitLen ≤ 64)
    (h : value.toNat < 2 ^ bitLen) : Emits (storeU8 bitLen value) (lowBits bitLen value.toNat) :=
  emits_writeUint hle h

/-- A slice is written byte by byte. -/
lemma emits_storeSlice (slice : List UInt8) :
    Emits (storeSlice slice) (slice.flatMap fun b => lowBits 8 b.toNat) := by
  rw [storeSlice, writeBytes, writeBits, if_neg (lt_irrefl _), ← bitsOf_bytes]
  exact emits_writeAll _

/-- **A cell that is built of calls has their bits.** -/
theorem Emits.build (lib : HashLib) (h : Emits call bits) (hroom : bits.length ≤ maxCellBits) :
    ∃ cell b, call CellBuilder.new = .ok () b ∧ b.build lib = .ok cell ∧
      bitsOf cell.data cell.bitLen = bits ∧ cell.references = [] ∧
      cell.data.length = bytesFor cell.bitLen := by
  have hnew : CellBuilder.new.writer.Padded := ⟨rfl, by simp [CellBuilder.new, ZeroPadded]⟩
  have hzero : CellBuilder.new.writer.bitLen = 0 := rfl
  obtain ⟨w, hcall, hw, hbits⟩ := h CellBuilder.new hnew (by rw [hzero]; omega)
  have hbitLen : w.bitLen = bits.length := by
    rw [← BitWriter.length_bits w, hbits, List.length_append, BitWriter.length_bits, hzero,
      Nat.zero_add]
  have hsmall : bytesFor w.bitLen ≤ 128 := by
    rw [bytesFor, hbitLen]
    unfold maxCellBits at hroom
    omega
  refine ⟨⟨w.bytes, w.bitLen, [], 0, lib.sha256 (cellRepr (descriptorByte w.bitLen) w.bytes
    w.bitLen [])⟩, { CellBuilder.new with writer := w }, hcall, ?_, hbits, rfl, hw.length_bytes⟩
  have hvalid : ¬(w.bitLen > maxCellBits ∨ ([] : List Cell).length > maxCellReferences ∨
      w.bytes.length ≠ bytesFor w.bitLen) := by
    rw [hw.length_bytes, List.length_nil, hbitLen]
    omega
  show Cell.new lib w.bytes w.bitLen [] = _
  rw [Cell.new, Cell.tryNew, if_neg hvalid, bitsDescriptor, if_neg (by omega)]
  rfl

end Emits

/-! ## What is read -/

/-- The bits that are left to read. -/
def BitReader.rest (r : BitReader) : List Bool := (bitsOf r.bytes r.bitLen).drop r.bitPosition

/-- A call of the reader takes some bits and returns a value, whatever follows. -/
def Takes {α : Type} (read : Read α) (bits : List Bool) (a : α) : Prop :=
  ∀ (r : BitReader) (rest : List Bool), r.rest = bits ++ rest →
    ∃ r' : BitReader, read r = .ok (a, r') ∧ r'.rest = rest

section Takes

variable {α β : Type} {read : Read α} {bits bits' : List Bool} {a : α} {b : β}

lemma takes_pure (a : α) : Takes (pure a : Read α) [] a := fun r _ h => ⟨r, rfl, h⟩

lemma Takes.bind {next : α → Read β} (h : Takes read bits a) (h' : Takes (next a) bits' b) :
    Takes (read >>= next) (bits ++ bits') b := by
  intro r rest hrest
  rw [List.append_assoc] at hrest
  obtain ⟨r', hread, hrest'⟩ := h r _ hrest
  obtain ⟨r'', hnext, hrest''⟩ := h' r' rest hrest'
  refine ⟨r'', ?_, hrest''⟩
  show (read r >>= fun s => next s.1 s.2) = _
  rw [hread, Lib.ok_bind]
  exact hnext

/-- One bit. -/
lemma takes_readBit (bit : Bool) : Takes readBit [bit] bit := by
  intro r rest hrest
  have hlt : r.bitPosition < r.bitLen := by
    have hlength := congrArg List.length hrest
    rw [BitReader.rest, List.length_drop, length_bitsOf, List.length_append,
      List.length_singleton] at hlength
    omega
  have hdrop : r.rest = bitAt r.bytes r.bitPosition ::
      (bitsOf r.bytes r.bitLen).drop (r.bitPosition + 1) := by
    rw [BitReader.rest, List.drop_eq_getElem_cons (by rw [length_bitsOf]; exact hlt)]
    congr 1
    simp only [bitsOf, List.getElem_map, List.getElem_range]
  rw [hdrop, List.singleton_append, List.cons.injEq] at hrest
  refine ⟨{ r with bitPosition := r.bitPosition + 1 }, ?_, hrest.2⟩
  rw [readBit, if_neg (by omega), ← hrest.1]
  rfl

/-- The loop of `read_uint` shifts the bits of a number in. -/
lemma takes_readBitsInto (bitLen value initial : ℕ) :
    Takes (readBitsInto bitLen initial) (lowBits bitLen value)
      (initial * 2 ^ bitLen + value % 2 ^ bitLen) := by
  induction bitLen generalizing initial with
  | zero =>
    rw [pow_zero, Nat.mod_one, Nat.mul_one]
    exact takes_pure initial
  | succ bitLen ih =>
    rw [lowBits_succ, ← List.singleton_append, readBitsInto]
    refine (takes_readBit _).bind ?_
    have hvalue : (2 * initial + (value.testBit bitLen).toNat) * 2 ^ bitLen + value % 2 ^ bitLen =
        initial * 2 ^ (bitLen + 1) + value % 2 ^ (bitLen + 1) := by
      rw [pow_succ, Nat.mod_mul, Nat.toNat_testBit]
      ring
    exact hvalue ▸ ih _

/-- A number is read back. -/
lemma takes_readUint {bitLen value : ℕ} (hle : bitLen ≤ 64) (h : value < 2 ^ bitLen) :
    Takes (readUint bitLen) (lowBits bitLen value) value := by
  have hread := takes_readBitsInto bitLen value 0
  rw [Nat.zero_mul, Nat.zero_add, Nat.mod_eq_of_lt h] at hread
  rw [readUint, if_neg (by omega)]
  exact hread

lemma takes_readU8 (b : UInt8) : Takes readU8 (lowBits 8 b.toNat) b := by
  have hread : Takes readU8 (lowBits 8 b.toNat ++ []) (UInt8.ofNat b.toNat) :=
    (takes_readUint (by decide) b.toNat_lt).bind (takes_pure _)
  rwa [List.append_nil, UInt8.ofNat_toNat] at hread

/-- The bytes of an array, one after the other. -/
def readArray : (n : ℕ) → Read (Lib.FixedBytes n)
  | 0 => pure ⟨[], rfl⟩
  | n + 1 => do
    let b ← readU8
    let bytes ← readArray n
    pure ⟨b :: bytes.val, congrArg Nat.succ bytes.property⟩

lemma takes_readArray {n : ℕ} (bytes : Lib.FixedBytes n) :
    Takes (readArray n) (bytes.val.flatMap fun b => lowBits 8 b.toNat) bytes := by
  induction n with
  | zero =>
    obtain ⟨bytes, hlength⟩ := bytes
    obtain rfl := List.length_eq_zero_iff.mp hlength
    exact takes_pure _
  | succ n ih =>
    obtain ⟨_ | ⟨b, bytes⟩, hlength⟩ := bytes
    · cases hlength
    · rw [List.flatMap_cons]
      have hrest := ih ⟨bytes, Nat.succ.inj hlength⟩
      rw [← List.append_nil (bytes.flatMap _)]
      exact (takes_readU8 b).bind (hrest.bind (takes_pure _))

end Takes

end GemCore.Ton
