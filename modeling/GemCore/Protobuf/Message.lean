import GemCore.Protobuf.Agreement
import Mathlib.Algebra.Order.BigOperators.Group.List

/-!
# What a message says

A reference reader of proto3 messages over the fields of the wire format: of a number or a byte
string the last field counts, a field that is absent is zero or empty, the parts of a message are
merged, and a repeated field has its values in order. A field with another wire type than the
declared one is not of the declared field.

## Main definitions

* `wireFields` — the fields of a byte string, if it is a sequence of fields.
* `varintOf`, `bytesOf`, `messageOf`, `repeatedOf` — the value of a field.

## Main results

* `wireFields_written` — the fields of what was written.
* `varintsOf_written`, `bytesFieldsOf_written` — the values of one call, on the number of the call
  and on any other.
-/

namespace GemCore.Protobuf

open Lib

/-! ## Reading -/

/-- The fields of a byte string, with lengths of 64 bits. -/
def wireFields (data : List UInt8) : Option (List Field) :=
  match visitFields .bits64 record data [] with
  | (fs, .ok ()) => some fs
  | (_, .error _) => none

/-- The numbers under a field number. -/
def varintsOf (number : ℕ) (fs : List Field) : List ℕ :=
  fs.filterMap fun f => match f.value with
    | .varint value => if f.number = number then some value else none
    | _ => none

/-- The byte strings under a field number. -/
def bytesFieldsOf (number : ℕ) (fs : List Field) : List (List UInt8) :=
  fs.filterMap fun f => match f.value with
    | .bytes value => if f.number = number then some value else none
    | _ => none

/-- A number: the last one, zero if there is none. -/
def varintOf (number : ℕ) (fs : List Field) : ℕ := ((varintsOf number fs).getLast?).getD 0

/-- A byte string: the last one, empty if there is none. -/
def bytesOf (number : ℕ) (fs : List Field) : List UInt8 :=
  ((bytesFieldsOf number fs).getLast?).getD []

/-- The bytes of an embedded message, with its parts merged. -/
def messageOf (number : ℕ) (fs : List Field) : List UInt8 := (bytesFieldsOf number fs).flatten

/-- The values of a repeated field. -/
def repeatedOf (number : ℕ) (fs : List Field) : List (List UInt8) := bytesFieldsOf number fs

/-! ## Reading what was written -/

/-- **The fields of what was written** are the ones that were written. -/
theorem wireFields_written {writes : List Write} (h : ∀ w ∈ writes, w.InRange)
    (hlen : (writes.flatMap Write.encode).length < 2 ^ 64) :
    wireFields (writes.flatMap Write.encode) = some (writes.flatMap Write.written) := by
  have hfit : (writes.flatMap Write.encode).length < PointerWidth.usize .bits64 := hlen
  rw [wireFields, visitFields_written h hfit, visitAll_record]
  rfl

/-- The number a call writes under its own number. -/
def Write.varint? : Write → Option ℕ
  | varint _ value => if value = 0 then none else some value
  | rawVarint _ value => some value
  | optionalU64 _ value => value
  | optionalBool _ value => value.map Bool.toNat
  | _ => none

/-- The bytes a call writes under its own number. -/
def Write.bytes? : Write → Option (List UInt8)
  | bytes _ data | message _ data => present data
  | string _ value => present value.toUTF8.data.toList
  | optionalMessage _ value | optionalBytes _ value => value.bind present
  | optionalString _ value => value.bind fun value => present value.toUTF8.data.toList
  | _ => none
where
  /-- Empty bytes are not written. -/
  present (data : List UInt8) : Option (List UInt8) := if data = [] then none else some data

lemma present_of_ne_nil {data : List UInt8} (h : data ≠ []) :
    Write.bytes?.present data = some data := if_neg h

lemma varintsOf_append (number : ℕ) (fs gs : List Field) :
    varintsOf number (fs ++ gs) = varintsOf number fs ++ varintsOf number gs :=
  List.filterMap_append

lemma bytesFieldsOf_append (number : ℕ) (fs gs : List Field) :
    bytesFieldsOf number (fs ++ gs) = bytesFieldsOf number fs ++ bytesFieldsOf number gs :=
  List.filterMap_append

lemma ofBytes_eq (number : ℕ) (data : List UInt8) :
    Write.written.ofBytes number data =
      ((Write.bytes?.present data).map fun data => Field.mk number (.bytes data)).toList := by
  rw [Write.written.ofBytes, Write.bytes?.present]
  split <;> rfl

/-- **The field of a call**: the number or the bytes it writes. -/
theorem written_eq (w : Write) :
    w.written = (w.varint?.map fun value => Field.mk w.number (.varint value)).toList ++
      (w.bytes?.map fun data => Field.mk w.number (.bytes data)).toList := by
  cases w with
  | varint fieldNumber value =>
    rw [Write.written, Write.varint?]
    split <;> rfl
  | rawVarint fieldNumber value => rfl
  | bytes fieldNumber data => exact ofBytes_eq fieldNumber data
  | string fieldNumber value => exact ofBytes_eq fieldNumber _
  | message fieldNumber data => exact ofBytes_eq fieldNumber data
  | optionalMessage fieldNumber value =>
    cases value with
    | none => rfl
    | some data => exact ofBytes_eq fieldNumber data
  | optionalString fieldNumber value =>
    cases value with
    | none => rfl
    | some value => exact ofBytes_eq fieldNumber _
  | optionalBytes fieldNumber value =>
    cases value with
    | none => rfl
    | some data => exact ofBytes_eq fieldNumber data
  | optionalU64 fieldNumber value | optionalBool fieldNumber value => cases value <;> rfl

/-- The numbers one call writes. -/
lemma varintsOf_written (number : ℕ) (w : Write) :
    varintsOf number w.written = if w.number = number then w.varint?.toList else [] := by
  rw [written_eq]
  cases w.varint? <;> cases w.bytes? <;> simp [varintsOf, List.filterMap] <;> split <;> simp_all

/-- The byte strings one call writes. -/
lemma bytesFieldsOf_written (number : ℕ) (w : Write) :
    bytesFieldsOf number w.written = if w.number = number then w.bytes?.toList else [] := by
  rw [written_eq]
  cases w.varint? <;> cases w.bytes? <;> simp [bytesFieldsOf, List.filterMap] <;> split <;> simp_all

/-- The numbers some calls write: those of the calls with the number. -/
lemma varintsOf_flatMap (number : ℕ) (writes : List Write) :
    varintsOf number (writes.flatMap Write.written) =
      (writes.filter (·.number = number)).filterMap Write.varint? := by
  induction writes with
  | nil => rfl
  | cons w writes ih =>
    rw [List.flatMap_cons, varintsOf_append, varintsOf_written, ih, List.filter_cons]
    by_cases h : w.number = number
    · cases hv : w.varint? <;> simp [h, hv]
    · simp [h]

/-- The byte strings some calls write. -/
lemma bytesFieldsOf_flatMap (number : ℕ) (writes : List Write) :
    bytesFieldsOf number (writes.flatMap Write.written) =
      (writes.filter (·.number = number)).filterMap Write.bytes? := by
  induction writes with
  | nil => rfl
  | cons w writes ih =>
    rw [List.flatMap_cons, bytesFieldsOf_append, bytesFieldsOf_written, ih, List.filter_cons]
    by_cases h : w.number = number
    · cases hv : w.bytes? <;> simp [h, hv]
    · simp [h]

/-! ## Lengths -/

lemma length_le_encodeBytesField (number : ℕ) (data : List UInt8) :
    data.length ≤ (encodeBytesField number data).length := by
  rw [encodeBytesField]
  split
  · rename_i h
    simp [h]
  · rw [List.length_append]
    exact Nat.le_add_left _ _

lemma eq_of_present {data payload : List UInt8} (h : Write.bytes?.present data = some payload) :
    payload = data := by
  rw [Write.bytes?.present] at h
  split at h
  · cases h
  · exact (Option.some.inj h).symm

/-- The bytes a call writes are not empty. -/
lemma ne_nil_of_bytes? {w : Write} {data : List UInt8} (h : w.bytes? = some data) :
    data ≠ [] := by
  have hpresent : ∀ payload, Write.bytes?.present payload = some data → data ≠ [] := by
    intro payload hpayload
    rw [Write.bytes?.present] at hpayload
    split at hpayload
    · cases hpayload
    · cases hpayload
      assumption
  cases w with
  | bytes fieldNumber payload | message fieldNumber payload | string fieldNumber value =>
    exact hpresent _ h
  | optionalMessage fieldNumber value | optionalBytes fieldNumber value =>
    obtain ⟨payload, rfl, h⟩ := Option.bind_eq_some_iff.mp h
    exact hpresent _ h
  | optionalString fieldNumber value =>
    obtain ⟨text, rfl, h⟩ := Option.bind_eq_some_iff.mp h
    exact hpresent _ h
  | varint fieldNumber value => cases h
  | rawVarint fieldNumber value => cases h
  | optionalU64 fieldNumber value => cases h
  | optionalBool fieldNumber value => cases h

/-- What a call writes is at least as long as its bytes. -/
lemma length_le_encode {w : Write} {data : List UInt8} (h : w.bytes? = some data) :
    data.length ≤ w.encode.length := by
  cases w with
  | bytes fieldNumber payload =>
    rw [eq_of_present h]
    exact length_le_encodeBytesField fieldNumber payload
  | message fieldNumber payload =>
    rw [eq_of_present h, Write.encode, encodeMessageField_eq]
    exact length_le_encodeBytesField fieldNumber payload
  | string fieldNumber value =>
    rw [eq_of_present h]
    exact length_le_encodeBytesField fieldNumber _
  | optionalMessage fieldNumber value =>
    obtain ⟨payload, rfl, h⟩ := Option.bind_eq_some_iff.mp h
    rw [eq_of_present h]
    show _ ≤ (encodeMessageField fieldNumber payload).length
    rw [encodeMessageField_eq]
    exact length_le_encodeBytesField fieldNumber payload
  | optionalBytes fieldNumber value =>
    obtain ⟨payload, rfl, h⟩ := Option.bind_eq_some_iff.mp h
    rw [eq_of_present h]
    exact length_le_encodeBytesField fieldNumber payload
  | optionalString fieldNumber value =>
    obtain ⟨text, rfl, h⟩ := Option.bind_eq_some_iff.mp h
    rw [eq_of_present h]
    exact length_le_encodeBytesField fieldNumber _
  | varint fieldNumber value => cases h
  | rawVarint fieldNumber value => cases h
  | optionalU64 fieldNumber value => cases h
  | optionalBool fieldNumber value => cases h

/-- **An embedded message is no longer than the message around it.** -/
theorem length_le_of_mem {writes : List Write} {w : Write} {data : List UInt8} (hw : w ∈ writes)
    (h : w.bytes? = some data) : data.length ≤ (writes.flatMap Write.encode).length := by
  refine (length_le_encode h).trans ?_
  rw [List.length_flatMap]
  exact List.le_sum_of_mem (List.mem_map_of_mem (f := fun w => w.encode.length) hw)

/-- A message with bytes in it is not empty. -/
lemma flatMap_encode_ne_nil {writes : List Write} {w : Write} {data : List UInt8}
    (hw : w ∈ writes) (h : w.bytes? = some data) : writes.flatMap Write.encode ≠ [] := by
  intro hnil
  have hle := length_le_of_mem hw h
  rw [hnil, List.length_nil] at hle
  exact ne_nil_of_bytes? h (List.eq_nil_of_length_eq_zero (Nat.le_zero.mp hle))

/-- Embedded messages that are not empty are read back in order. -/
lemma filterMap_bytes?_messages {number : ℕ} {messages : List (List UInt8)}
    (h : ∀ m ∈ messages, m ≠ []) :
    (messages.map (Write.message number)).filterMap Write.bytes? = messages := by
  rw [List.filterMap_map]
  have hsome : ∀ m ∈ messages, (Write.bytes? ∘ Write.message number) m = some m := by
    intro m hm
    exact present_of_ne_nil (h m hm)
  rw [List.filterMap_congr hsome, List.filterMap_some]

end GemCore.Protobuf
