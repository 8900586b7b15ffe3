import GemCore.Lib.Leb128
import GemCore.Protobuf.Wire
import Mathlib.Data.Nat.Bitwise
import Mathlib.Tactic.Ring

/-!
# The wire format

Which byte strings are fields, and that the reader takes these. The number of a field is not bounded
here by 32 bits, only by the 64 bits of the tag. How many bytes a length stands for is a parameter:
in the wire format the length itself, for the reader what the pointer width keeps of it.

## Main definitions

* `IsVarint` — a number of at most 64 bits in at most ten bytes.
* `IsField`, `IsWire` — one field, and a sequence of fields.
* `Field.narrow` — a field with its number cut to 32 bits.

## Main results

* `readVarint_eq_ok_iff` — the reader of numbers.
* `readField_eq_ok_iff` — the reader of fields: it takes exactly the fields with their lengths cut
  to the pointer width, and narrows their numbers.
* `readField_ne_panic` — it does not read outside the data.
-/

namespace GemCore.Protobuf

open Lib

/-- The byte string is a number of at most 64 bits in at most ten bytes. -/
structure IsVarint (bytes : List UInt8) (n : ℕ) : Prop where
  form : IsLeb128 bytes n
  length_le : bytes.length ≤ 10
  lt : n < 2 ^ 64

section

variable (cut : ℕ → ℕ)

/-- The byte string is a value of the wire type, with as many bytes as is kept of its length. -/
inductive IsValue : ℕ → List UInt8 → FieldValue → Prop where
  | varint {v : List UInt8} {n : ℕ} (hv : IsVarint v n) : IsValue wireVarint v (.varint n)
  | fixed64 {b : List UInt8} (hb : b.length = 8) : IsValue wireFixed64 b (.fixed64 (ofLe b))
  | bytes {l b : List UInt8} {n : ℕ} (hl : IsVarint l n) (hn : cut n = b.length) :
    IsValue wireLengthDelimited (l ++ b) (.bytes b)
  | fixed32 {b : List UInt8} (hb : b.length = 4) : IsValue wireFixed32 b .fixed32

/-- The byte string is a field: a tag and a value. -/
inductive IsField : List UInt8 → Field → Prop where
  | mk {t v : List UInt8} {number wireType : ℕ} {value : FieldValue}
      (ht : IsVarint t (8 * number + wireType)) (hv : IsValue cut wireType v value) :
    IsField (t ++ v) ⟨number, value⟩

/-- The byte string is a sequence of fields. -/
inductive IsWire : List UInt8 → List Field → Prop where
  | nil : IsWire [] []
  | cons {b rest : List UInt8} {f : Field} {fs : List Field} (hf : IsField cut b f)
      (hrest : IsWire rest fs) : IsWire (b ++ rest) (f :: fs)

end

/-- A field with the number that 32 bits keep of it. -/
def Field.narrow (f : Field) : Field := ⟨f.number % 2 ^ 32, f.value⟩

/-! ## Bytes and bits -/

lemma toNat_and_low (b : UInt8) : (b &&& 0x7f).toNat = b.toNat % 128 := by
  rw [UInt8.toNat_and]
  exact Nat.and_two_pow_sub_one_eq_mod b.toNat 7

lemma and_high_eq_zero_iff (b : UInt8) : b &&& 0x80 = 0 ↔ b.toNat < 128 := by
  have hlt := b.toNat_lt
  rw [← UInt8.toNat_inj, UInt8.toNat_and]
  show b.toNat &&& 2 ^ 7 = 0 ↔ _
  rw [Nat.and_two_pow, Nat.testBit_eq_decide_div_mod_eq]
  by_cases h : b.toNat / 2 ^ 7 % 2 = 1
  · simp only [h, decide_true, Bool.toNat_true, one_mul]
    omega
  · simp only [h, decide_false, Bool.toNat_false, zero_mul, true_iff]
    omega

/-- A group of seven bits stays within 64 bits, at the last shift a single bit. -/
theorem group_lt {value shift : ℕ} (hvalue : value < 128) (hshift : shift ≤ 63)
    (hseven : 7 ∣ shift) (hlast : ¬(shift = 63 ∧ 1 < value)) : value * 2 ^ shift < 2 ^ 64 := by
  by_cases h : shift = 63
  · subst h
    omega
  · have hle : shift ≤ 56 := by omega
    calc value * 2 ^ shift < 128 * 2 ^ shift := by
          exact Nat.mul_lt_mul_of_pos_right hvalue (by positivity)
      _ ≤ 128 * 2 ^ 56 := Nat.mul_le_mul_left _ (Nat.pow_le_pow_right (by norm_num) hle)
      _ < 2 ^ 64 := by norm_num

/-- Bits above the ones that are there are added. -/
lemma lor_shiftLeft {result value shift : ℕ} (hr : result < 2 ^ shift)
    (hv : value * 2 ^ shift < 2 ^ 64) :
    result ||| (value <<< shift) % 2 ^ 64 = result + value * 2 ^ shift := by
  rw [Nat.shiftLeft_eq, Nat.mod_eq_of_lt hv, Nat.lor_comm, mul_comm,
    ← Nat.two_pow_add_eq_or_of_lt hr, add_comm]

lemma add_group_lt {result value shift : ℕ} (hr : result < 2 ^ shift) (hshift : shift ≤ 63)
    (hv : value * 2 ^ shift < 2 ^ 64) : result + value * 2 ^ shift < 2 ^ 64 := by
  have hle : 2 ^ shift ≤ 2 ^ 64 := Nat.pow_le_pow_right (by norm_num) (by omega)
  rw [← lor_shiftLeft hr hv]
  exact Nat.or_lt_two_pow (by omega) (Nat.mod_lt _ (by norm_num))

/-! ## Numbers -/

section Numbers

variable {data : List UInt8} {position next value : ℕ}

lemma index_eq_ok_iff {byte : UInt8} :
    index data position = .ok byte ↔ ∃ rest, data.drop position = byte :: rest := by
  rw [index, okOr_eq_ok_iff, List.getElem?_eq_some_iff]
  constructor
  · rintro ⟨h, rfl⟩
    exact ⟨_, List.drop_eq_getElem_cons h⟩
  · rintro ⟨rest, h⟩
    have hlt : position < data.length := by
      have := congrArg List.length h
      simp at this
      omega
    rw [List.drop_eq_getElem_cons hlt, List.cons.injEq] at h
    exact ⟨hlt, h.1⟩

lemma drop_succ_of_drop {byte : UInt8} {rest : List UInt8}
    (h : data.drop position = byte :: rest) : data.drop (position + 1) = rest := by
  rw [← List.drop_drop, h]
  rfl

lemma lt_length_of_drop {byte : UInt8} {rest : List UInt8}
    (h : data.drop position = byte :: rest) : position < data.length := by
  have := congrArg List.length h
  simp at this
  omega

/-- **Reading a number** adds the groups of seven bits of a form from the current shift on. -/
theorem readVarintLoop_sound {result shift : ℕ}
    (h : readVarintLoop data position result shift = .ok (value, next))
    (hresult : result < 2 ^ shift) (hshift : shift ≤ 63) (hseven : 7 ∣ shift) :
    ∃ bytes rest n, data.drop position = bytes ++ rest ∧ IsLeb128 bytes n ∧
      7 * bytes.length + shift ≤ 70 ∧ result + n * 2 ^ shift < 2 ^ 64 ∧
      value = result + n * 2 ^ shift ∧ next = position + bytes.length := by
  induction position, result, shift using readVarintLoop.induct data with
  | case1 position result shift hlt ih =>
    rw [readVarintLoop, if_pos hlt] at h
    obtain ⟨byte, hbyte, h⟩ := bind_eq_ok_iff.mp h
    obtain ⟨rest, hrest⟩ := index_eq_ok_iff.mp hbyte
    rw [guard_eq_ok_iff, toNat_and_low] at h
    obtain ⟨hfits, h⟩ := h
    have hgroup := group_lt (Nat.mod_lt _ (by norm_num)) hshift hseven hfits
    rw [lor_shiftLeft hresult hgroup] at h
    split at h
    · rename_i hlast
      rw [and_high_eq_zero_iff] at hlast
      rw [Nat.mod_eq_of_lt hlast] at h hgroup
      cases h
      refine ⟨[byte], rest, byte.toNat, hrest, .last byte hlast, ?_, ?_, rfl, rfl⟩
      · rw [List.length_singleton]
        omega
      · exact add_group_lt hresult hshift hgroup
    · rename_i hmore
      rw [and_high_eq_zero_iff] at hmore
      rw [guard_eq_ok_iff] at h
      obtain ⟨hshort, h⟩ := h
      have hpow : 2 ^ (shift + 7) = 128 * 2 ^ shift := by ring
      have hresult' : result + byte.toNat % 128 * 2 ^ shift < 2 ^ (shift + 7) := by
        have : byte.toNat % 128 * 2 ^ shift ≤ 127 * 2 ^ shift :=
          Nat.mul_le_mul_right _ (by omega)
        omega
      specialize ih byte
      rw [toNat_and_low, lor_shiftLeft hresult hgroup] at ih
      obtain ⟨bytes, rest', n, hbytes, hform, hlength, hlt, hvalue, hnext⟩ :=
        ih h hresult' (by omega) (by omega)
      have hsum : result + (byte.toNat % 128 + 128 * n) * 2 ^ shift =
          result + byte.toNat % 128 * 2 ^ shift + n * 2 ^ (shift + 7) := by
        rw [hpow]
        ring
      rw [drop_succ_of_drop hrest] at hbytes
      refine ⟨byte :: bytes, rest', _, by rw [hrest, hbytes]; rfl, .more byte (by omega) hform,
        ?_, ?_, ?_, ?_⟩
      · rw [List.length_cons]
        omega
      · rw [hsum]
        exact hlt
      · rw [hsum, hvalue]
      · rw [hnext, List.length_cons]
        omega
  | case2 position result shift hlt =>
    rw [readVarintLoop, if_neg hlt] at h
    cases h

/-- A form that fits is read. -/
lemma readVarintLoop_complete {bytes rest : List UInt8} {n result shift : ℕ}
    (hform : IsLeb128 bytes n) (hdrop : data.drop position = bytes ++ rest)
    (hresult : result < 2 ^ shift) (hseven : 7 ∣ shift)
    (hlength : 7 * bytes.length + shift ≤ 70) (hlt : result + n * 2 ^ shift < 2 ^ 64) :
    readVarintLoop data position result shift =
      .ok (result + n * 2 ^ shift, position + bytes.length) := by
  induction hform generalizing position result shift with
  | last byte hlast =>
    have hbyte := index_eq_ok_iff.mpr ⟨rest, hdrop⟩
    rw [List.length_singleton] at hlength
    have hpart : byte.toNat * 2 ^ shift < 2 ^ 64 := by omega
    have hfits : ¬(shift = 63 ∧ 1 < byte.toNat) := by
      rintro ⟨rfl, h⟩
      omega
    rw [readVarintLoop, if_pos (lt_length_of_drop hdrop), hbyte, ok_bind, toNat_and_low,
      Nat.mod_eq_of_lt hlast, if_neg hfits, if_pos ((and_high_eq_zero_iff byte).mpr hlast),
      lor_shiftLeft hresult hpart]
    rfl
  | @more byte hmore bytes n hform ih =>
    have hbyte := index_eq_ok_iff.mpr ⟨bytes ++ rest, hdrop⟩
    have hpos := hform.length_pos
    rw [List.length_cons] at hlength
    have hpow : 2 ^ (shift + 7) = 128 * 2 ^ shift := by ring
    have hsum : result + (byte.toNat % 128 + 128 * n) * 2 ^ shift =
        result + byte.toNat % 128 * 2 ^ shift + n * 2 ^ (shift + 7) := by
      rw [hpow]
      ring
    rw [hsum] at hlt
    have hgroup : byte.toNat % 128 * 2 ^ shift < 2 ^ 64 := by omega
    have hresult' : result + byte.toNat % 128 * 2 ^ shift < 2 ^ (shift + 7) := by
      have : byte.toNat % 128 * 2 ^ shift ≤ 127 * 2 ^ shift :=
        Nat.mul_le_mul_right _ (by omega)
      omega
    have hread := ih (drop_succ_of_drop hdrop) hresult' (by omega) (by omega) hlt
    rw [readVarintLoop, if_pos (lt_length_of_drop hdrop), hbyte, ok_bind, toNat_and_low,
      if_neg (by omega), if_neg (by rw [and_high_eq_zero_iff]; omega), if_neg (by omega),
      lor_shiftLeft hresult hgroup, hread, hsum, List.length_cons]
    congr 2
    omega

/-- **The reader of numbers** takes the forms of at most ten bytes and 64 bits. -/
theorem readVarint_eq_ok_iff :
    readVarint data position = .ok (value, next) ↔
      ∃ bytes rest, data.drop position = bytes ++ rest ∧ IsVarint bytes value ∧
        next = position + bytes.length := by
  constructor
  · intro h
    obtain ⟨bytes, rest, n, hdrop, hform, hlength, hlt, hvalue, hnext⟩ :=
      readVarintLoop_sound h (by norm_num) (by norm_num) (by norm_num)
    simp only [pow_zero, mul_one, zero_add] at hlt hvalue
    subst hvalue
    exact ⟨bytes, rest, hdrop, ⟨hform, by omega, hlt⟩, hnext⟩
  · rintro ⟨bytes, rest, hdrop, ⟨hform, hlength, hlt⟩, rfl⟩
    have h := readVarintLoop_complete hform hdrop (show 0 < 2 ^ 0 by norm_num) (by norm_num)
      (by omega) (by simpa using hlt)
    simpa [readVarint] using h

lemma readVarint_ne_panic : readVarint data position ≠ .error .panic := by
  have hloop : ∀ result shift, readVarintLoop data position result shift ≠ .error .panic := by
    intro result shift
    induction position, result, shift using readVarintLoop.induct data with
    | case1 position result shift hlt ih =>
      have hbyte : index data position = .ok data[position] := by
        rw [index, List.getElem?_eq_getElem hlt]
        rfl
      rw [readVarintLoop, if_pos hlt, hbyte, ok_bind]
      split
      · simp
      · split
        · simp
        · split
          · simp
          · exact ih _
    | case2 position result shift hlt =>
      rw [readVarintLoop, if_neg hlt]
      simp
  exact hloop 0 0

lemma readVarint_next_le (h : readVarint data position = .ok (value, next)) :
    next ≤ data.length := by
  obtain ⟨bytes, rest, hdrop, hform, rfl⟩ := readVarint_eq_ok_iff.mp h
  have hpos := hform.form.length_pos
  have := congrArg List.length hdrop
  simp only [List.length_drop, List.length_append] at this
  omega

end Numbers

/-! ## Values and fields -/

section Fields

variable {width : PointerWidth} {data : List UInt8} {position next : ℕ} {value : FieldValue}

/-- A slice that was checked is the next bytes of the data. -/
lemma checkedEnd_slice_eq_ok_iff (overflow truncated : String) {n : ℕ} {bytes : List UInt8}
    (hlen : data.length < width.usize) (hposition : position ≤ data.length) :
    (checkedEnd width data position n overflow truncated = .ok next ∧
        slice data position next = .ok bytes) ↔
      ∃ rest, data.drop position = bytes ++ rest ∧ bytes.length = n ∧ next = position + n := by
  constructor
  · rintro ⟨hend, hslice⟩
    obtain ⟨rfl, hle⟩ := checkedEnd_eq_ok hend
    rw [slice, if_pos ⟨by omega, hle⟩, Nat.add_sub_cancel_left] at hslice
    obtain rfl := Except.ok.inj hslice
    refine ⟨(data.drop position).drop n, (List.take_append_drop n _).symm, ?_, rfl⟩
    rw [List.length_take, List.length_drop]
    omega
  · rintro ⟨rest, hdrop, hn, rfl⟩
    have hle : position + n ≤ data.length := by
      have := congrArg List.length hdrop
      simp only [List.length_drop, List.length_append] at this
      omega
    constructor
    · rw [checkedEnd, if_neg (by omega), if_neg (by omega)]
    · rw [slice, if_pos ⟨by omega, hle⟩, Nat.add_sub_cancel_left, hdrop, ← hn, List.take_left]

/-- When bytes behind a length are read: as many as the pointer width keeps of it. -/
lemma readBytes_eq_ok_iff {bytes : List UInt8} (hlen : data.length < width.usize) :
    readBytes width data position = .ok (bytes, next) ↔
      ∃ l rest n, data.drop position = (l ++ bytes) ++ rest ∧ IsVarint l n ∧
        n % width.usize = bytes.length ∧ next = position + (l ++ bytes).length := by
  constructor
  · intro h
    obtain ⟨⟨n, start⟩, hn, h⟩ := bind_eq_ok_iff.mp h
    obtain ⟨stop, hstop, h⟩ := bind_eq_ok_iff.mp h
    obtain ⟨b, hb, h⟩ := bind_eq_ok_iff.mp h
    cases h
    have hle := readVarint_next_le hn
    obtain ⟨l, r, hdrop, hl, rfl⟩ := readVarint_eq_ok_iff.mp hn
    obtain ⟨rest, hrest, hn, rfl⟩ := (checkedEnd_slice_eq_ok_iff _ _ hlen hle).mp ⟨hstop, hb⟩
    rw [← List.drop_drop, hdrop, List.drop_left] at hrest
    refine ⟨l, rest, n, by rw [hdrop, hrest, List.append_assoc], hl, hn.symm, ?_⟩
    rw [List.length_append]
    omega
  · rintro ⟨l, rest, n, hdrop, hl, hn, rfl⟩
    rw [List.append_assoc] at hdrop
    have hread := readVarint_eq_ok_iff.mpr ⟨l, bytes ++ rest, hdrop, hl, rfl⟩
    have hrest : data.drop (position + l.length) = bytes ++ rest := by
      rw [← List.drop_drop, hdrop, List.drop_left]
    obtain ⟨hstop, hb⟩ := (checkedEnd_slice_eq_ok_iff "invalid protobuf length"
      "truncated protobuf length-delimited field" hlen
        (readVarint_next_le hread)).mpr ⟨rest, hrest, rfl, rfl⟩
    rw [readBytes, hread]
    show (checkedEnd width data (position + l.length) (n % width.usize) _ _ >>= _) = _
    rw [hn, hstop, ok_bind, hb, ok_bind, List.length_append, add_assoc]

lemma readFixed64_eq_ok_iff {n : ℕ} (hlen : data.length < width.usize)
    (hposition : position ≤ data.length) :
    readFixed64 width data position = .ok (n, next) ↔
      ∃ b rest, data.drop position = b ++ rest ∧ b.length = 8 ∧ n = ofLe b ∧
        next = position + b.length := by
  constructor
  · intro h
    obtain ⟨stop, hstop, h⟩ := bind_eq_ok_iff.mp h
    obtain ⟨b, hb, h⟩ := bind_eq_ok_iff.mp h
    cases h
    obtain ⟨rest, hrest, hn, rfl⟩ :=
      (checkedEnd_slice_eq_ok_iff _ _ hlen hposition).mp ⟨hstop, hb⟩
    exact ⟨b, rest, hrest, hn, rfl, by rw [hn]⟩
  · rintro ⟨b, rest, hdrop, hn, rfl, rfl⟩
    obtain ⟨hstop, hb⟩ := (checkedEnd_slice_eq_ok_iff "invalid protobuf fixed64 length"
      "truncated protobuf fixed64" hlen hposition).mpr ⟨rest, hdrop, hn, rfl⟩
    rw [readFixed64, hstop, ok_bind, hb, ok_bind, hn]

lemma skipFixed32_eq_ok_iff (hlen : data.length < width.usize) :
    skipFixed32 width data position = .ok next ↔
      ∃ b rest, data.drop position = b ++ rest ∧ b.length = 4 ∧ next = position + b.length := by
  constructor
  · intro h
    obtain ⟨rfl, hle⟩ := checkedEnd_eq_ok h
    refine ⟨(data.drop position).take 4, (data.drop position).drop 4,
      (List.take_append_drop 4 _).symm, ?_, ?_⟩ <;>
      rw [List.length_take, List.length_drop] <;>
      omega
  · rintro ⟨b, rest, hdrop, hn, rfl⟩
    have := congrArg List.length hdrop
    simp only [List.length_drop, List.length_append] at this
    rw [skipFixed32, checkedEnd, if_neg (by omega), if_neg (by omega), hn]

/-- **The reader of values**, for each wire type. -/
theorem readValue_eq_ok_iff {wireType : ℕ} (hlen : data.length < width.usize)
    (hposition : position ≤ data.length) :
    readValue width data wireType position = .ok (value, next) ↔
      ∃ bytes rest, data.drop position = bytes ++ rest ∧ IsValue (· % width.usize) wireType bytes value ∧
        next = position + bytes.length := by
  constructor
  · intro h
    rw [readValue] at h
    split at h
    · rename_i hw
      obtain ⟨⟨n, p⟩, hn, h⟩ := bind_eq_ok_iff.mp h
      cases h
      obtain ⟨v, rest, hdrop, hv, rfl⟩ := readVarint_eq_ok_iff.mp hn
      exact ⟨v, rest, hdrop, hw ▸ .varint hv, rfl⟩
    split at h
    · rename_i hw
      obtain ⟨⟨n, p⟩, hn, h⟩ := bind_eq_ok_iff.mp h
      cases h
      obtain ⟨b, rest, hdrop, hb, rfl, rfl⟩ := (readFixed64_eq_ok_iff hlen hposition).mp hn
      exact ⟨b, rest, hdrop, hw ▸ .fixed64 hb, rfl⟩
    split at h
    · rename_i hw
      obtain ⟨⟨b, p⟩, hb, h⟩ := bind_eq_ok_iff.mp h
      cases h
      obtain ⟨l, rest, n, hdrop, hl, hn, rfl⟩ := (readBytes_eq_ok_iff hlen).mp hb
      exact ⟨l ++ b, rest, hdrop, hw ▸ .bytes hl hn, rfl⟩
    split at h
    · rename_i hw
      obtain ⟨p, hp, h⟩ := bind_eq_ok_iff.mp h
      cases h
      obtain ⟨b, rest, hdrop, hb, rfl⟩ := (skipFixed32_eq_ok_iff hlen).mp hp
      exact ⟨b, rest, hdrop, hw ▸ .fixed32 hb, rfl⟩
    · cases h
  · rintro ⟨bytes, rest, hdrop, hvalue, rfl⟩
    cases hvalue with
    | varint hv =>
      have h := readVarint_eq_ok_iff.mpr ⟨bytes, rest, hdrop, hv, rfl⟩
      rw [readValue, if_pos rfl, h]
      rfl
    | fixed64 hb =>
      have h := (readFixed64_eq_ok_iff hlen hposition).mpr ⟨bytes, rest, hdrop, hb, rfl, rfl⟩
      rw [readValue, if_neg (by decide), if_pos rfl, h]
      rfl
    | bytes hl hn =>
      have h := (readBytes_eq_ok_iff hlen).mpr ⟨_, rest, _, hdrop, hl, hn, rfl⟩
      rw [readValue, if_neg (by decide), if_neg (by decide), if_pos rfl, h]
      rfl
    | fixed32 hb =>
      have h := (skipFixed32_eq_ok_iff hlen).mpr ⟨bytes, rest, hdrop, hb, rfl⟩
      rw [readValue, if_neg (by decide), if_neg (by decide), if_neg (by decide), if_pos rfl, h]
      rfl

lemma IsValue.wireType_lt {cut : ℕ → ℕ} {wireType : ℕ} {bytes : List UInt8}
    (h : IsValue cut wireType bytes value) : wireType < 8 := by
  cases h <;> decide

/-- The parts of a tag. -/
lemma tag_and (number : ℕ) {wireType : ℕ} (h : wireType < 8) :
    (8 * number + wireType) &&& 0x07 = wireType ∧ (8 * number + wireType) >>> 3 = number := by
  rw [show 0x07 = 2 ^ 3 - 1 by norm_num, Nat.and_two_pow_sub_one_eq_mod, Nat.shiftRight_eq_div_pow]
  omega

/-- **The reader of fields** takes exactly the fields with their lengths cut to the pointer width, and
cuts their numbers to 32 bits. -/
theorem readField_eq_ok_iff {field : Field} (hlen : data.length < width.usize) :
    readField width data position = .ok (field, next) ↔
      ∃ bytes rest f, data.drop position = bytes ++ rest ∧ IsField (· % width.usize) bytes f ∧
        field = f.narrow ∧ next = position + bytes.length := by
  constructor
  · intro h
    obtain ⟨⟨tag, p⟩, htag, h⟩ := bind_eq_ok_iff.mp h
    obtain ⟨⟨value, q⟩, hvalue, h⟩ := bind_eq_ok_iff.mp h
    cases h
    have hle := readVarint_next_le htag
    obtain ⟨t, r, hdrop, ht, rfl⟩ := readVarint_eq_ok_iff.mp htag
    obtain ⟨v, rest, hrest, hv, rfl⟩ := (readValue_eq_ok_iff hlen hle).mp hvalue
    rw [← List.drop_drop, hdrop, List.drop_left] at hrest
    have hsplit : tag = 8 * (tag >>> 3) + (tag &&& 0x07) := by
      rw [show 0x07 = 2 ^ 3 - 1 by norm_num, Nat.and_two_pow_sub_one_eq_mod,
        Nat.shiftRight_eq_div_pow]
      omega
    refine ⟨t ++ v, rest, ⟨tag >>> 3, value⟩, by rw [hdrop, hrest, List.append_assoc],
      .mk (by rw [← hsplit]; exact ht) hv, rfl, ?_⟩
    rw [List.length_append]
    omega
  · rintro ⟨bytes, rest, f, hdrop, hfield, rfl, rfl⟩
    cases hfield with
    | @mk t v number wireType value ht hv =>
      rw [List.append_assoc] at hdrop
      have htag := readVarint_eq_ok_iff.mpr ⟨t, v ++ rest, hdrop, ht, rfl⟩
      have hrest : data.drop (position + t.length) = v ++ rest := by
        rw [← List.drop_drop, hdrop, List.drop_left]
      have hvalue := (readValue_eq_ok_iff hlen (readVarint_next_le htag)).mpr
        ⟨v, rest, hrest, hv, rfl⟩
      obtain ⟨hand, hshift⟩ := tag_and number hv.wireType_lt
      rw [readField, htag]
      show (readValue width data ((8 * number + wireType) &&& 0x07) (position + t.length) >>= _) = _
      rw [hand, hvalue]
      show Except.ok (Field.mk ((8 * number + wireType) >>> 3 % 2 ^ 32) value, _) = _
      rw [hshift, List.length_append, add_assoc]
      rfl

lemma checkedEnd_ne_panic {length : ℕ} {overflow truncated : String} :
    checkedEnd width data position length overflow truncated ≠ .error .panic := by
  rw [checkedEnd]
  split
  · simp
  · split <;> simp

/-- A slice up to a checked end is inside the data. -/
lemma slice_ne_panic {length stop : ℕ} {overflow truncated : String}
    (h : checkedEnd width data position length overflow truncated = .ok stop) :
    slice data position stop ≠ .error .panic := by
  obtain ⟨rfl, hle⟩ := checkedEnd_eq_ok h
  rw [slice, if_pos ⟨by omega, hle⟩]
  simp

lemma readValue_ne_panic {wireType : ℕ} : readValue width data wireType position ≠ .error .panic := by
  rw [readValue]
  split
  · exact bind_ne_error readVarint_ne_panic fun _ _ => by simp
  split
  · refine bind_ne_error ?_ fun _ _ => by simp
    refine bind_ne_error checkedEnd_ne_panic fun stop hstop => ?_
    exact bind_ne_error (slice_ne_panic hstop) fun _ _ => by simp
  split
  · refine bind_ne_error ?_ fun _ _ => by simp
    refine bind_ne_error readVarint_ne_panic fun _ _ => ?_
    refine bind_ne_error checkedEnd_ne_panic fun stop hstop => ?_
    exact bind_ne_error (slice_ne_panic hstop) fun _ _ => by simp
  split
  · exact bind_ne_error checkedEnd_ne_panic fun _ _ => by simp
  · simp

/-- **The reader does not read outside the data.** -/
theorem readField_ne_panic : readField width data position ≠ .error .panic := by
  refine bind_ne_error readVarint_ne_panic fun _ _ => ?_
  exact bind_ne_error readValue_ne_panic fun _ _ => by simp

end Fields

/-! ## Unique reading -/

section Unique

variable {cut : ℕ → ℕ} {a b r s : List UInt8}

lemma IsVarint.append_inj {n m : ℕ} (ha : IsVarint a n) (hb : IsVarint b m)
    (h : a ++ r = b ++ s) : a = b ∧ n = m :=
  ha.form.append_inj hb.form h

/-- No value is the front of another one. -/
lemma IsValue.append_inj {wireType : ℕ} {x y : FieldValue} (ha : IsValue cut wireType a x)
    (hb : IsValue cut wireType b y) (h : a ++ r = b ++ s) : a = b ∧ x = y := by
  cases ha with
  | varint hv =>
    cases hb with
    | varint hv' =>
      obtain ⟨rfl, rfl⟩ := hv.append_inj hv' h
      exact ⟨rfl, rfl⟩
  | fixed64 hn =>
    cases hb with
    | fixed64 hn' =>
      obtain ⟨rfl, -⟩ := List.append_inj h (hn.trans hn'.symm)
      exact ⟨rfl, rfl⟩
  | bytes hl hn =>
    cases hb with
    | bytes hl' hn' =>
      rw [List.append_assoc, List.append_assoc] at h
      obtain ⟨rfl, rfl⟩ := hl.append_inj hl' h
      obtain ⟨rfl, -⟩ := List.append_inj (List.append_cancel_left h) (hn.symm.trans hn')
      exact ⟨rfl, rfl⟩
  | fixed32 hn =>
    cases hb with
    | fixed32 hn' =>
      obtain ⟨rfl, -⟩ := List.append_inj h (hn.trans hn'.symm)
      exact ⟨rfl, rfl⟩

/-- Where a field ends is determined by the bytes. -/
lemma IsField.append_inj {f g : Field} (ha : IsField cut a f) (hb : IsField cut b g)
    (h : a ++ r = b ++ s) : a = b ∧ f = g := by
  cases ha with
  | @mk t v number wireType value ht hv =>
    cases hb with
    | @mk t' v' number' wireType' value' ht' hv' =>
      rw [List.append_assoc, List.append_assoc] at h
      obtain ⟨rfl, htag⟩ := ht.append_inj ht' h
      have hlt := hv.wireType_lt
      have hlt' := hv'.wireType_lt
      obtain rfl : number = number' := by omega
      obtain rfl : wireType = wireType' := by omega
      obtain ⟨rfl, rfl⟩ := hv.append_inj hv' (List.append_cancel_left h)
      exact ⟨rfl, rfl⟩

lemma IsField.length_pos {f : Field} (h : IsField cut a f) : 0 < a.length := by
  cases h with
  | mk ht hv =>
    have := ht.form.length_pos
    rw [List.length_append]
    omega

end Unique

end GemCore.Protobuf
