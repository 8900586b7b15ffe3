import Mathlib.Data.Nat.Bitwise
import Mathlib.Tactic.Ring
import GemCore.Ton.Cell

/-!
# The bit reader

`BitReader` (`gem_ton/src/tvm/reader.rs`), and what it means that a read returns a value from a
piece of the input: wherever the piece starts at a byte, the read returns the value and stops
right behind the piece. Such facts compose along the reads of a parser. Lengths and positions have
the width of the target.

## Main definitions

* `BitReader` and its operations.
* `Reads` — a read returns a value from a piece of the input.

## Main results

* `Reads.bind` — reads in sequence.
* `reads_readUint` — whole bytes read bit by bit.
* `Reads.many` — a number of reads of one kind.
-/

namespace GemCore.Ton

open Lib

variable (width : PointerWidth)

/-- `BitReader`. -/
structure BitReader where
  bytes : List UInt8
  bitLen : ℕ
  bitPosition : ℕ
  deriving DecidableEq

/-- A read: a value and the reader behind it, or an error. -/
abbrev Read := StateT BitReader (Except TvmError)

namespace BitReader

/-- `BitReader::new`. -/
def new (bytes : List UInt8) : BitReader := ⟨bytes, bytes.length * 8 % width.usize, 0⟩

/-- `BitReader::position`. -/
def position (r : BitReader) : ℕ := r.bitPosition / 8

/-- `BitReader::remaining_bits`. -/
def remainingBits (r : BitReader) : ℕ := r.bitLen - r.bitPosition

/-- `BitReader::remaining`. -/
def remaining (r : BitReader) : ℕ := (r.remainingBits + 7) / 8

end BitReader

/-- `BitReader::read_bit`. -/
def readBit : Read Bool := fun r =>
  if r.bitPosition ≥ r.bitLen then .error ⟨"unexpected end of input"⟩
  else
    let byte := r.bytes.getD (r.bitPosition / 8) 0
    .ok (byte.toNat.testBit (7 - r.bitPosition % 8), { r with bitPosition := r.bitPosition + 1 })

/-- The loop of `BitReader::read_uint`. -/
def readBitsInto : ℕ → ℕ → Read ℕ
  | 0, value => pure value
  | n + 1, value => do
    let bit ← readBit
    readBitsInto n (2 * value + bit.toNat)

/-- `BitReader::read_uint`. -/
def readUint (bitLen : ℕ) : Read ℕ :=
  if bitLen > 64 then throw ⟨"fixed-size integers above 64 bits are not supported"⟩
  else readBitsInto bitLen 0

/-- `BitReader::read_u8`. -/
def readU8 : Read UInt8 := do
  let value ← readUint 8
  pure (UInt8.ofNat value)

/-- `BitReader::read_u32`. -/
def readU32 : Read ℕ := do
  let value ← readUint 32
  pure (value % 2 ^ 32)

/-- `BitReader::read_bytes`. -/
def readBytes (len : ℕ) : Read (List UInt8) := fun r =>
  if r.bitPosition % 8 ≠ 0 then .error ⟨"byte reads require byte-aligned position"⟩
  else if len * 8 ≥ width.usize then .error ⟨"invalid read length"⟩
  else if r.remainingBits < len * 8 then .error ⟨"unexpected end of input"⟩
  else if r.position + len ≥ width.usize then .error ⟨"invalid read length"⟩
  else .ok ((r.bytes.drop r.position).take len,
    { r with bitPosition := r.bitPosition + len * 8 })

/-- `BitReader::skip`. -/
def skip (len : ℕ) : Read Unit := do
  let _ ← readBytes width len
  pure ()

/-- `BitReader::read_u32_le`. -/
def readU32Le : Read ℕ := do
  let bytes ← readBytes width 4
  pure (ofLe bytes)

/-- `BitReader::read_var_uint`: the fold shifts in a `usize`. -/
def readVarUint (size : ℕ) : Read ℕ := do
  let bytes ← readBytes width size
  pure (ofBe bytes % width.usize)

/-- A number of reads of one kind, until one fails. -/
def readMany {α : Type} (read : Read α) : ℕ → Read (List α)
  | 0 => pure []
  | n + 1 => do
    let a ← read
    let l ← readMany read n
    pure (a :: l)

/-- The result of a read whose error, if any, is replaced. -/
def orInvalid {α : Type} (message : String) (read : Read α) : Read α := fun r =>
  (read r).mapError fun _ => invalid message

/-! ## Reading back what was written -/

variable {width}

/-- A reader at a byte of its input. -/
def readerAt (bytes : List UInt8) (position : ℕ) : BitReader :=
  ⟨bytes, bytes.length * 8, position * 8⟩

@[simp] lemma readerAt_position (bytes : List UInt8) (position : ℕ) :
    (readerAt bytes position).position = position :=
  Nat.mul_div_cancel _ (by decide)

/-- The reader of an input whose bits can be counted. -/
lemma BitReader.new_eq {bytes : List UInt8} (h : bytes.length < 2 ^ 29) :
    BitReader.new width bytes = readerAt bytes 0 := by
  have husize := width.le_usize
  rw [BitReader.new, Nat.mod_eq_of_lt (by omega), readerAt, Nat.zero_mul]

/-- A read returns `a` from the piece `chunk` of the input, whatever stands before and behind it,
as long as the input is shorter than `2^29` bytes. -/
def Reads {α : Type} (read : Read α) (chunk : List UInt8) (a : α) : Prop :=
  ∀ before behind : List UInt8, (before ++ chunk ++ behind).length < 2 ^ 29 →
    read (readerAt (before ++ chunk ++ behind) before.length) =
      .ok (a, readerAt (before ++ chunk ++ behind) (before ++ chunk).length)

namespace Reads

variable {α β : Type} {read : Read α} {chunk : List UInt8} {a : α}

lemma pure (a : α) : Reads (Pure.pure a) [] a := by
  intro before behind _
  simp only [List.append_nil]
  rfl

/-- Reads in sequence. -/
lemma bind {next : α → Read β} {chunk' : List UInt8} {b : β} (h : Reads read chunk a)
    (h' : Reads (next a) chunk' b) : Reads (read >>= next) (chunk ++ chunk') b := by
  intro before behind hlen
  have hfirst := h before (chunk' ++ behind) (by simpa [List.append_assoc] using hlen)
  have hsecond := h' (before ++ chunk) behind (by simpa [List.append_assoc] using hlen)
  change (read (readerAt _ _) >>= fun s => next s.1 s.2) = _
  simp only [List.append_assoc] at hfirst hsecond ⊢
  rw [hfirst, ok_bind]
  exact hsecond

lemma map {f : α → β} (h : Reads read chunk a) :
    Reads (read >>= fun x => Pure.pure (f x)) chunk (f a) := by
  have hseq : Reads (read >>= fun x => Pure.pure (f x)) (chunk ++ []) (f a) :=
    h.bind (Reads.pure (f a))
  rwa [List.append_nil] at hseq

lemma orInvalid (message : String) (h : Reads read chunk a) :
    Reads (orInvalid message read) chunk a := by
  intro before behind hlen
  unfold Ton.orInvalid
  rw [h before behind hlen]
  rfl

/-- As many reads as there are pieces return the values of the pieces. -/
lemma many {encode : α → List UInt8} {l : List α} (h : ∀ a ∈ l, Reads read (encode a) a) :
    Reads (readMany read l.length) (l.flatMap encode) l := by
  induction l with
  | nil => exact Reads.pure []
  | cons a l ih =>
    exact (h a List.mem_cons_self).bind
      ((ih fun b hb => h b (List.mem_cons_of_mem _ hb)).map)

end Reads

/-- Reading the `j` low bits of a byte. -/
lemma readBitsInto_byte (before behind : List UInt8) (b : UInt8) (j : ℕ) (hj : j ≤ 8)
    (value : ℕ) :
    readBitsInto j value ⟨before ++ b :: behind, (before ++ b :: behind).length * 8,
        before.length * 8 + (8 - j)⟩ =
      .ok (value * 2 ^ j + b.toNat % 2 ^ j, ⟨before ++ b :: behind,
        (before ++ b :: behind).length * 8, before.length * 8 + 8⟩) := by
  induction j generalizing value with
  | zero =>
    rw [readBitsInto, pow_zero, Nat.mod_one, Nat.mul_one]
    rfl
  | succ j ih =>
    have hdiv : (before.length * 8 + (8 - (j + 1))) / 8 = before.length := by omega
    have hmod : 7 - (before.length * 8 + (8 - (j + 1))) % 8 = j := by omega
    have hnext : before.length * 8 + (8 - (j + 1)) + 1 = before.length * 8 + (8 - j) := by omega
    have hbit : readBit ⟨before ++ b :: behind, (before ++ b :: behind).length * 8,
        before.length * 8 + (8 - (j + 1))⟩ = .ok (b.toNat.testBit j, ⟨before ++ b :: behind,
          (before ++ b :: behind).length * 8, before.length * 8 + (8 - j)⟩) := by
      unfold readBit
      dsimp only
      rw [if_neg (by simp only [List.length_append, List.length_cons]; omega), hdiv, hmod, hnext]
      simp
    change (readBit _ >>= fun s => readBitsInto j (2 * value + s.1.toNat) s.2) = _
    rw [hbit, ok_bind, ih (by omega)]
    have hsucc : b.toNat % 2 ^ (j + 1) =
        b.toNat % 2 ^ j + 2 ^ j * (b.toNat.testBit j).toNat := by
      rw [pow_succ, Nat.mod_mul, Nat.toNat_testBit]
    rw [hsucc, pow_succ]
    congr 2
    ring

lemma readBitsInto_add (m n value : ℕ) :
    readBitsInto (m + n) value = readBitsInto m value >>= readBitsInto n := by
  induction m generalizing value with
  | zero => simp [readBitsInto]
  | succ m ih =>
    rw [Nat.succ_add, readBitsInto, readBitsInto, bind_assoc]
    simp only [ih]

/-- Reading whole bytes bit by bit. -/
lemma reads_readBitsInto (chunk : List UInt8) (value : ℕ) :
    Reads (readBitsInto (8 * chunk.length) value) chunk
      (value * 256 ^ chunk.length + ofBe chunk) := by
  induction chunk generalizing value with
  | nil => simpa [readBitsInto, ofBe] using Reads.pure value
  | cons b chunk ih =>
    have hbyte : Reads (readBitsInto 8 value) [b] (value * 256 + b.toNat) := by
      intro before behind _
      have hread := readBitsInto_byte before behind b 8 le_rfl value
      rw [Nat.mod_eq_of_lt b.toNat_lt] at hread
      simpa [readerAt, Nat.add_mul] using hread
    have hlen : 8 * (b :: chunk).length = 8 + 8 * chunk.length := by
      rw [List.length_cons]
      omega
    have hvalue : value * 256 ^ (b :: chunk).length + ofBe (b :: chunk) =
        (value * 256 + b.toNat) * 256 ^ chunk.length + ofBe chunk := by
      rw [ofBe_cons, List.length_cons, pow_succ]
      ring
    rw [hlen, readBitsInto_add, hvalue]
    exact hbyte.bind (ih _)

/-- Reading an unsigned integer of whole bytes. -/
lemma reads_readUint {chunk : List UInt8} {bitLen : ℕ} (h : bitLen = 8 * chunk.length)
    (hle : bitLen ≤ 64) : Reads (readUint bitLen) chunk (ofBe chunk) := by
  have hread := reads_readBitsInto chunk 0
  rw [Nat.zero_mul, Nat.zero_add, ← h] at hread
  unfold readUint
  rwa [if_neg (by omega)]

lemma reads_readU8 (b : UInt8) : Reads readU8 [b] b := by
  have hread : Reads readU8 [b] (UInt8.ofNat (ofBe [b])) :=
    (reads_readUint rfl (by simp)).map
  simpa [ofBe] using hread

lemma reads_readU32 {value : ℕ} (h : value < 2 ^ 32) :
    Reads readU32 (beBytes 4 value) value := by
  have hread : Reads readU32 (beBytes 4 value) (ofBe (beBytes 4 value) % 2 ^ 32) :=
    (reads_readUint (by simp) (by decide)).map
  rwa [ofBe_beBytes_of_lt (by simpa using h), Nat.mod_eq_of_lt h] at hread

lemma reads_readBytes {chunk : List UInt8} {len : ℕ} (h : chunk.length = len) :
    Reads (readBytes width len) chunk chunk := by
  intro before behind hlen
  subst h
  have husize := width.le_usize
  simp only [List.length_append] at hlen
  unfold readBytes readerAt BitReader.remainingBits BitReader.position
  dsimp only
  rw [Nat.mul_div_cancel _ (by decide)]
  rw [if_neg (by omega), if_neg (by omega), if_neg (by simp only [List.length_append]; omega),
    if_neg (by omega)]
  simp [Nat.add_mul]

lemma reads_readVarUint {size value : ℕ} (hsize : size ≤ 4) (h : value < 256 ^ size) :
    Reads (readVarUint width size) (beBytes size value) value := by
  have hread : Reads (readVarUint width size) (beBytes size value)
      (ofBe (beBytes size value) % width.usize) :=
    (reads_readBytes (by simp)).map
  have hlt : value < width.usize :=
    calc value < 256 ^ size := h
      _ ≤ 256 ^ 4 := Nat.pow_le_pow_right (by decide) hsize
      _ = 2 ^ 32 := by decide
      _ ≤ width.usize := width.le_usize
  rwa [ofBe_beBytes_of_lt h, Nat.mod_eq_of_lt hlt] at hread

lemma reads_readU32Le {value : ℕ} (h : value < 2 ^ 32) :
    Reads (readU32Le width) (leBytes 4 value) value := by
  have hread : Reads (readU32Le width) (leBytes 4 value) (ofLe (leBytes 4 value)) :=
    (reads_readBytes (by simp)).map
  rwa [ofLe_leBytes_of_lt (by simpa using h)] at hread

end GemCore.Ton
