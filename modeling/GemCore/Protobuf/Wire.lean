import GemCore.Lib.Bytes
import GemCore.Lib.Result

/-!
# The protobuf reader and writer

The helpers that write fields and the loop that visits them
(`gem_encoding/src/protobuf/encode.rs`, `decode.rs`). A read outside the data panics, so that
the reader is a function with three outcomes: a value, an error, a panic. Lengths and positions
have the width of the target.

## Main definitions

* `encodeVarint`, `Write` — what can be written.
* `readVarint`, `readField` — one number, one field.
* `visitFields` — the loop over the fields.
-/

namespace GemCore.Protobuf

open Lib

/-! ## Writing -/

/-- `encode_varint`. -/
def encodeVarint (value : ℕ) : List UInt8 :=
  if 0x80 ≤ value then (UInt8.ofNat value ||| 0x80) :: encodeVarint (value >>> 7)
  else [UInt8.ofNat value]
termination_by value
decreasing_by
  rw [Nat.shiftRight_eq_div_pow]
  omega

/-- `WIRE_VARINT`. -/
def wireVarint : ℕ := 0

/-- `WIRE_FIXED64`. -/
def wireFixed64 : ℕ := 1

/-- `WIRE_LENGTH_DELIMITED`. -/
def wireLengthDelimited : ℕ := 2

/-- `WIRE_FIXED32`. -/
def wireFixed32 : ℕ := 5

/-- `field_tag`. -/
def fieldTag (fieldNumber wireType : ℕ) : List UInt8 :=
  encodeVarint ((fieldNumber <<< 3) % 2 ^ 64 ||| wireType)

/-- `encode_raw_varint_field`. -/
def encodeRawVarintField (fieldNumber value : ℕ) : List UInt8 :=
  fieldTag fieldNumber wireVarint ++ encodeVarint value

/-- `encode_varint_field`. -/
def encodeVarintField (fieldNumber value : ℕ) : List UInt8 :=
  if value = 0 then [] else encodeRawVarintField fieldNumber value

/-- `encode_bytes_field`. -/
def encodeBytesField (fieldNumber : ℕ) (data : List UInt8) : List UInt8 :=
  if data = [] then []
  else fieldTag fieldNumber wireLengthDelimited ++ encodeVarint (data.length % 2 ^ 64) ++ data

/-- `encode_string_field`. -/
def encodeStringField (fieldNumber : ℕ) (value : String) : List UInt8 :=
  encodeBytesField fieldNumber value.toUTF8.data.toList

/-- `encode_message_field`. -/
def encodeMessageField (fieldNumber : ℕ) (message : List UInt8) : List UInt8 :=
  if message = [] then [] else encodeBytesField fieldNumber message

/-- `encode_optional_message_field`, of a message that is already encoded. -/
def encodeOptionalMessageField (fieldNumber : ℕ) (value : Option (List UInt8)) : List UInt8 :=
  (value.map (encodeMessageField fieldNumber)).getD []

/-- `encode_optional_string_field`. -/
def encodeOptionalStringField (fieldNumber : ℕ) (value : Option String) : List UInt8 :=
  (value.map (encodeStringField fieldNumber)).getD []

/-- `encode_optional_bytes_field`. -/
def encodeOptionalBytesField (fieldNumber : ℕ) (value : Option (List UInt8)) : List UInt8 :=
  (value.map (encodeBytesField fieldNumber)).getD []

/-- `encode_optional_u64_field`. -/
def encodeOptionalU64Field (fieldNumber : ℕ) (value : Option ℕ) : List UInt8 :=
  (value.map (encodeRawVarintField fieldNumber)).getD []

/-- `encode_optional_bool_field`. -/
def encodeOptionalBoolField (fieldNumber : ℕ) (value : Option Bool) : List UInt8 :=
  (value.map fun value => encodeRawVarintField fieldNumber value.toNat).getD []

/-- A call of one of the helpers. -/
inductive Write where
  | varint (fieldNumber value : ℕ)
  | rawVarint (fieldNumber value : ℕ)
  | bytes (fieldNumber : ℕ) (data : List UInt8)
  | string (fieldNumber : ℕ) (value : String)
  | message (fieldNumber : ℕ) (data : List UInt8)
  | optionalMessage (fieldNumber : ℕ) (value : Option (List UInt8))
  | optionalString (fieldNumber : ℕ) (value : Option String)
  | optionalBytes (fieldNumber : ℕ) (value : Option (List UInt8))
  | optionalU64 (fieldNumber : ℕ) (value : Option ℕ)
  | optionalBool (fieldNumber : ℕ) (value : Option Bool)

/-- The bytes a call returns. -/
def Write.encode : Write → List UInt8
  | varint fieldNumber value => encodeVarintField fieldNumber value
  | rawVarint fieldNumber value => encodeRawVarintField fieldNumber value
  | bytes fieldNumber data => encodeBytesField fieldNumber data
  | string fieldNumber value => encodeStringField fieldNumber value
  | message fieldNumber data => encodeMessageField fieldNumber data
  | optionalMessage fieldNumber value => encodeOptionalMessageField fieldNumber value
  | optionalString fieldNumber value => encodeOptionalStringField fieldNumber value
  | optionalBytes fieldNumber value => encodeOptionalBytesField fieldNumber value
  | optionalU64 fieldNumber value => encodeOptionalU64Field fieldNumber value
  | optionalBool fieldNumber value => encodeOptionalBoolField fieldNumber value

/-! ## Reading -/

/-- Why a reader returned no value. -/
inductive Fault where
  | error (text : String)
  | panic

/-- `FieldValue`. The value of a 32-bit field is skipped. -/
inductive FieldValue where
  | varint (value : ℕ)
  | fixed64 (value : ℕ)
  | bytes (value : List UInt8)
  | fixed32

/-- `Field`. -/
structure Field where
  number : ℕ
  value : FieldValue

section Reading

variable (width : PointerWidth) (data : List UInt8)

/-- `data[position]`. -/
def index (position : ℕ) : Except Fault UInt8 := okOr (data[position]?) .panic

/-- `&data[start..end]`. -/
def slice (start stop : ℕ) : Except Fault (List UInt8) :=
  if start ≤ stop ∧ stop ≤ data.length then .ok ((data.drop start).take (stop - start))
  else .error .panic

/-- The loop of `read_varint`. -/
def readVarintLoop (position result shift : ℕ) : Except Fault (ℕ × ℕ) :=
  if position < data.length then do
    let byte ← index data position
    if shift = 63 ∧ 1 < (byte &&& 0x7f).toNat then .error (.error "protobuf varint overflows u64")
    else if byte &&& 0x80 = 0 then
      .ok (result ||| ((byte &&& 0x7f).toNat <<< shift) % 2 ^ 64, position + 1)
    else if 64 ≤ shift + 7 then .error (.error "protobuf varint is too long")
    else
      readVarintLoop (position + 1) (result ||| ((byte &&& 0x7f).toNat <<< shift) % 2 ^ 64)
        (shift + 7)
  else .error (.error "truncated protobuf varint")
termination_by data.length - position

/-- `read_varint`: the number and the position after it. -/
def readVarint (position : ℕ) : Except Fault (ℕ × ℕ) := readVarintLoop data position 0 0

/-- `position.checked_add(len)` and the comparison with the end of the data. -/
def checkedEnd (position length : ℕ) (overflow truncated : String) : Except Fault ℕ :=
  if width.usize ≤ position + length then .error (.error overflow)
  else if data.length < position + length then .error (.error truncated)
  else .ok (position + length)

/-- `read_fixed64`. -/
def readFixed64 (position : ℕ) : Except Fault (ℕ × ℕ) := do
  let stop ← checkedEnd width data position 8 "invalid protobuf fixed64 length"
    "truncated protobuf fixed64"
  let bytes ← slice data position stop
  .ok (ofLe bytes, stop)

/-- `skip_fixed32`. -/
def skipFixed32 (position : ℕ) : Except Fault ℕ :=
  checkedEnd width data position 4 "invalid protobuf fixed32 length" "truncated protobuf fixed32"

/-- The bytes of a length-delimited field: `read_varint(..)? as usize`. -/
def readBytes (position : ℕ) : Except Fault (List UInt8 × ℕ) := do
  let (length, position) ← readVarint data position
  let stop ← checkedEnd width data position (length % width.usize) "invalid protobuf length"
    "truncated protobuf length-delimited field"
  let bytes ← slice data position stop
  .ok (bytes, stop)

/-- The value of a field, by its wire type. -/
def readValue (wireType position : ℕ) : Except Fault (FieldValue × ℕ) :=
  if wireType = wireVarint then do
    let (value, position) ← readVarint data position
    .ok (.varint value, position)
  else if wireType = wireFixed64 then do
    let (value, position) ← readFixed64 width data position
    .ok (.fixed64 value, position)
  else if wireType = wireLengthDelimited then do
    let (value, position) ← readBytes width data position
    .ok (.bytes value, position)
  else if wireType = wireFixed32 then do
    let position ← skipFixed32 width data position
    .ok (.fixed32, position)
  else .error (.error s!"unsupported protobuf wire type {wireType}")

/-- One turn of the loop of `visit_fields`: the field and the position after it. The number of
the tag is narrowed to 32 bits. -/
def readField (position : ℕ) : Except Fault (Field × ℕ) := do
  let (tag, position) ← readVarint data position
  let (value, position) ← readValue width data (tag &&& 0x07) position
  .ok (⟨(tag >>> 3) % 2 ^ 32, value⟩, position)

end Reading

/-! ## The loop over the fields

Every turn reads at least the tag, which is why the loop ends. -/

section Progress

variable {width : PointerWidth} {data : List UInt8} {position next : ℕ}

lemma readVarintLoop_lt {result shift value : ℕ}
    (h : readVarintLoop data position result shift = .ok (value, next)) : position < next := by
  induction position, result, shift using readVarintLoop.induct data with
  | case1 position result shift hlt ih =>
    rw [readVarintLoop, if_pos hlt] at h
    obtain ⟨byte, -, h⟩ := bind_eq_ok_iff.mp h
    split at h
    · cases h
    · split at h
      · cases h
        omega
      · split at h
        · cases h
        · have := ih byte h
          omega
  | case2 position result shift hlt =>
    rw [readVarintLoop, if_neg hlt] at h
    cases h

lemma checkedEnd_eq_ok {length : ℕ} {overflow truncated : String}
    (h : checkedEnd width data position length overflow truncated = .ok next) :
    next = position + length ∧ position + length ≤ data.length := by
  rw [checkedEnd, guard_eq_ok_iff, guard_eq_ok_iff] at h
  obtain ⟨-, hle, h⟩ := h
  cases h
  exact ⟨rfl, by omega⟩

lemma readValue_le {wireType : ℕ} {value : FieldValue}
    (h : readValue width data wireType position = .ok (value, next)) : position ≤ next := by
  rw [readValue] at h
  split at h
  · obtain ⟨⟨v, p⟩, hv, h⟩ := bind_eq_ok_iff.mp h
    cases h
    exact (readVarintLoop_lt hv).le
  · split at h
    · obtain ⟨⟨v, p⟩, hv, h⟩ := bind_eq_ok_iff.mp h
      obtain ⟨stop, hstop, hv⟩ := bind_eq_ok_iff.mp hv
      obtain ⟨bytes, -, hv⟩ := bind_eq_ok_iff.mp hv
      cases h
      cases hv
      have := (checkedEnd_eq_ok hstop).1
      omega
    · split at h
      · obtain ⟨⟨v, p⟩, hv, h⟩ := bind_eq_ok_iff.mp h
        obtain ⟨⟨length, start⟩, hlength, hv⟩ := bind_eq_ok_iff.mp hv
        obtain ⟨stop, hstop, hv⟩ := bind_eq_ok_iff.mp hv
        obtain ⟨bytes, -, hv⟩ := bind_eq_ok_iff.mp hv
        cases h
        cases hv
        have hlt := readVarintLoop_lt hlength
        have := (checkedEnd_eq_ok hstop).1
        omega
      · split at h
        · obtain ⟨p, hp, h⟩ := bind_eq_ok_iff.mp h
          cases h
          have := (checkedEnd_eq_ok hp).1
          omega
        · cases h

lemma readField_lt {field : Field} (h : readField width data position = .ok (field, next)) :
    position < next := by
  obtain ⟨⟨tag, p⟩, htag, h⟩ := bind_eq_ok_iff.mp h
  obtain ⟨⟨value, q⟩, hvalue, h⟩ := bind_eq_ok_iff.mp h
  cases h
  exact (readVarintLoop_lt htag).trans_le (readValue_le hvalue)

end Progress

section Visiting

variable {σ : Type} (width : PointerWidth) (visitor : σ → Field → σ × Except Fault Unit)
  (data : List UInt8)

/-- The loop of `visit_fields`. The visitor changes a state, which is kept when it fails. -/
def visitLoop (position : ℕ) (s : σ) : σ × Except Fault Unit :=
  if position < data.length then
    match _h : readField width data position with
    | .error fault => (s, .error fault)
    | .ok (field, next) =>
      match visitor s field with
      | (s, .error fault) => (s, .error fault)
      | (s, .ok ()) => visitLoop next s
  else (s, .ok ())
termination_by data.length - position
decreasing_by
  have := readField_lt _h
  omega

/-- `visit_fields`. -/
def visitFields (s : σ) : σ × Except Fault Unit := visitLoop width visitor data 0 s

end Visiting

end GemCore.Protobuf
