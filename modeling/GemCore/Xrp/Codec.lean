import Mathlib.Algebra.Field.Rat
import GemCore.Lib.Bytes

/-!
# The XRPL binary format

A reader of the XRPL serialisation format, written from the format and not from the signer: a
sequence of fields, each a header with a type code and a field code followed by a value whose
layout the type determines. Objects and arrays nest and end in a marker. Amounts above the
drop limit, issued amounts whose mantissa or exponent is out of range, lengths above 918744
and codes in the wrong form of header are not part of the format and are refused.

## Main definitions

* `Value`, `Field` — what is read.
* `parse` — the reader.
* `Representable` — the numbers an issued amount can denote.

## Main results

* `parseFields_wellFormed` — amounts that were read are within the limits of the format.
* `parseFields_segments`, `ReadsAll.parse_eq` — the reader inverts a writer that emits one segment a
  field.
-/

namespace GemCore.Xrp

open Lib

/-! ## Fields -/

/-- A value of the format, by type: 16- and 32-bit integers, the two kinds of amount, blobs,
account ids, objects and arrays. A field is a type code, a field code and a value. -/
inductive Value where
  | uint16 (value : ℕ)
  | uint32 (value : ℕ)
  | native (drops : ℤ)
  | issued (value : ℚ) (currency issuer : List UInt8)
  | blob (bytes : List UInt8)
  | account (bytes : List UInt8)
  | object (fields : List (ℕ × ℕ × Value))
  | array (fields : List (ℕ × ℕ × Value))

/-- Type code, field code and value. -/
abbrev Field := ℕ × ℕ × Value

/-- The order of fields in an object: by type code, then by field code. -/
def Field.Before (a b : Field) : Prop := a.1 < b.1 ∨ a.1 = b.1 ∧ a.2.1 < b.2.1

/-- The drop limit of the format. -/
def dropLimit : ℕ := 10 ^ 17

/-- The numbers an issued amount can denote: zero, or a mantissa of 16 digits and an exponent
from -96 to 80. -/
def Representable (value : ℚ) : Prop :=
  value = 0 ∨ ∃ (mantissa : ℕ) (exponent : ℤ), 10 ^ 15 ≤ mantissa ∧ mantissa < 10 ^ 16 ∧
    -96 ≤ exponent ∧ exponent ≤ 80 ∧
    (value = mantissa * (10 : ℚ) ^ exponent ∨ value = -(mantissa * (10 : ℚ) ^ exponent))

/-- Amounts within the limits of the format. -/
def Value.WellFormed : Value → Prop
  | native drops => drops ≤ dropLimit
  | issued value _ _ => Representable value
  | _ => True

/-! ## Readers -/

/-- A header: both codes in the first byte, or an escape of zero for a code above 15 that
follows. -/
def parseHeader : List UInt8 → Option (ℕ × ℕ × List UInt8)
  | [] => none
  | first :: rest =>
    let typeCode := first.toNat / 16
    let fieldCode := first.toNat % 16
    if typeCode ≠ 0 ∧ fieldCode ≠ 0 then some (typeCode, fieldCode, rest)
    else if typeCode ≠ 0 then
      match rest with
      | field :: rest => if 16 ≤ field.toNat then some (typeCode, field.toNat, rest) else none
      | [] => none
    else if fieldCode ≠ 0 then
      match rest with
      | type :: rest => if 16 ≤ type.toNat then some (type.toNat, fieldCode, rest) else none
      | [] => none
    else
      match rest with
      | type :: field :: rest =>
        if 16 ≤ type.toNat ∧ 16 ≤ field.toNat then some (type.toNat, field.toNat, rest) else none
      | _ => none

/-- A length prefix, in one, two or three bytes. -/
def parseLength : List UInt8 → Option (ℕ × List UInt8)
  | [] => none
  | b :: rest =>
    if b.toNat ≤ 192 then some (b.toNat, rest)
    else if b.toNat ≤ 240 then
      match rest with
      | c :: rest => some (193 + (b.toNat - 193) * 256 + c.toNat, rest)
      | [] => none
    else if b.toNat ≤ 254 then
      match rest with
      | c :: d :: rest =>
        let length := 12481 + (b.toNat - 241) * 65536 + c.toNat * 256 + d.toNat
        if length ≤ 918744 then some (length, rest) else none
      | _ => none
    else none

/-- A length and as many bytes. -/
def parsePrefixed (bytes : List UInt8) : Option (List UInt8 × List UInt8) :=
  match parseLength bytes with
  | some (length, rest) => takeBytes length rest
  | none => none

/-- The drops of a native amount: bit 62 is the sign, the rest the magnitude. -/
def decodeNative (bits : ℕ) : Option Value :=
  let magnitude : ℕ := bits % 2 ^ 62
  if magnitude ≤ dropLimit then
    some (.native (if bits / 2 ^ 62 = 1 then (magnitude : ℤ) else -(magnitude : ℤ)))
  else none

/-- The number of an issued amount: bit 62 is the sign, then follow the exponent in 8 bits,
shifted by 97, and the mantissa in 54. Zero has a form of its own. -/
def decodeIssued (bits : ℕ) : Option ℚ :=
  let mantissa : ℕ := bits % 2 ^ 54
  let exponent : ℕ := bits / 2 ^ 54 % 2 ^ 8
  if bits = 2 ^ 63 then some 0
  else if 10 ^ 15 ≤ mantissa ∧ mantissa < 10 ^ 16 ∧ 1 ≤ exponent ∧ exponent ≤ 177 then
    let magnitude := (mantissa : ℚ) * (10 : ℚ) ^ ((exponent : ℤ) - 97)
    some (if bits / 2 ^ 62 % 2 = 1 then magnitude else -magnitude)
  else none

/-- An amount: bit 63 tells an issued one from a native one. -/
def parseAmount (bytes : List UInt8) : Option (Value × List UInt8) :=
  match takeBytes 8 bytes with
  | none => none
  | some (bits, rest) =>
    let bits := ofBe bits
    if bits < 2 ^ 63 then (decodeNative bits).map (·, rest)
    else
      match decodeIssued bits, takeBytes 20 rest with
      | some value, some (currency, rest) =>
        (takeBytes 20 rest).map fun (issuer, rest) => (.issued value currency issuer, rest)
      | _, _ => none

/-- What a sequence of fields is part of: the transaction, an object or an array. -/
inductive Scope where
  | top
  | object
  | array
  deriving DecidableEq

/-- The bytes that end a scope. -/
def Scope.close : Scope → List UInt8
  | top => []
  | object => [0xe1]
  | array => [0xf1]

/-- What follows the end of the scope, if the input is there. -/
def Scope.atEnd : Scope → List UInt8 → Option (List UInt8)
  | top, [] => some []
  | object, 0xe1 :: rest => some rest
  | array, 0xf1 :: rest => some rest
  | _, _ => none

/-- A value of the given type; `inner` reads the fields of an object or an array. -/
def parseValue (inner : Scope → List UInt8 → Option (List Field × List UInt8)) (typeCode : ℕ)
    (bytes : List UInt8) : Option (Value × List UInt8) :=
  match typeCode with
  | 1 => (takeBytes 2 bytes).map fun (value, rest) => (.uint16 (ofBe value), rest)
  | 2 => (takeBytes 4 bytes).map fun (value, rest) => (.uint32 (ofBe value), rest)
  | 6 => parseAmount bytes
  | 7 => (parsePrefixed bytes).map fun (value, rest) => (.blob value, rest)
  | 8 =>
    match parsePrefixed bytes with
    | some (value, rest) => if value.length = 20 then some (.account value, rest) else none
    | none => none
  | 14 => (inner .object bytes).map fun (fields, rest) => (.object fields, rest)
  | 15 => (inner .array bytes).map fun (fields, rest) => (.array fields, rest)
  | _ => none

/-- One field. -/
def parseField (inner : Scope → List UInt8 → Option (List Field × List UInt8))
    (bytes : List UInt8) : Option (Field × List UInt8) :=
  match parseHeader bytes with
  | none => none
  | some (typeCode, fieldCode, rest) =>
    (parseValue inner typeCode rest).map fun (value, rest) => ((typeCode, fieldCode, value), rest)

/-- The fields up to the end of the scope. Every field takes at least one byte, so the length
of the input is fuel enough. -/
def parseFields : ℕ → Scope → List UInt8 → Option (List Field × List UInt8)
  | 0, _, _ => none
  | fuel + 1, scope, bytes =>
    match scope.atEnd bytes with
    | some rest => some ([], rest)
    | none =>
      match parseField (parseFields fuel) bytes with
      | none => none
      | some (field, rest) =>
        (parseFields fuel scope rest).map fun (fields, rest) => (field :: fields, rest)

/-- A whole transaction. -/
def parse (bytes : List UInt8) : Option (List Field) :=
  (parseFields (bytes.length + 1) .top bytes).map Prod.fst

/-! ## What the reader accepts -/

/-- An issued amount that was read denotes a representable number. -/
lemma decodeIssued_representable {bits : ℕ} {value : ℚ} (h : decodeIssued bits = some value) :
    Representable value := by
  unfold decodeIssued at h
  dsimp only at h
  split_ifs at h with hzero hrange hsign
  · exact Or.inl (Option.some.inj h).symm
  · obtain rfl := Option.some.inj h
    exact Or.inr ⟨_, _, hrange.1, hrange.2.1, by omega, by omega, Or.inl rfl⟩
  · obtain rfl := Option.some.inj h
    exact Or.inr ⟨_, _, hrange.1, hrange.2.1, by omega, by omega, Or.inr rfl⟩

/-- An amount that was read is within the limits of the format. -/
lemma parseAmount_wellFormed {bytes rest : List UInt8} {value : Value}
    (h : parseAmount bytes = some (value, rest)) : value.WellFormed := by
  unfold parseAmount at h
  split at h
  · cases h
  · dsimp only at h
    split_ifs at h
    · obtain ⟨v, hv, heq⟩ := Option.map_eq_some_iff.mp h
      obtain ⟨rfl, rfl⟩ := Prod.mk.inj heq
      unfold decodeNative at hv
      dsimp only at hv
      split_ifs at hv with hle
      all_goals
        obtain rfl := Option.some.inj hv
        simp only [Value.WellFormed]
        omega
    · split at h
      · rename_i hissued _
        obtain ⟨⟨issuer, rest'⟩, -, heq⟩ := Option.map_eq_some_iff.mp h
        obtain ⟨rfl, rfl⟩ := Prod.mk.inj heq
        exact decodeIssued_representable hissued
      · cases h

/-- A field that was read is within the limits of the format. -/
lemma parseField_wellFormed {inner : Scope → List UInt8 → Option (List Field × List UInt8)}
    {bytes rest : List UInt8} {field : Field} (h : parseField inner bytes = some (field, rest)) :
    field.2.2.WellFormed := by
  unfold parseField at h
  split at h
  · cases h
  · obtain ⟨⟨value, rest'⟩, hvalue, heq⟩ := Option.map_eq_some_iff.mp h
    obtain ⟨rfl, rfl⟩ := Prod.mk.inj heq
    dsimp only
    unfold parseValue at hvalue
    split at hvalue
    case h_3 => exact parseAmount_wellFormed hvalue
    case h_5 =>
      split at hvalue
      · split_ifs at hvalue
        obtain ⟨rfl, rfl⟩ := Prod.mk.inj (Option.some.inj hvalue)
        trivial
      · cases hvalue
    case h_8 => cases hvalue
    all_goals
      obtain ⟨⟨_, _⟩, -, heq⟩ := Option.map_eq_some_iff.mp hvalue
      obtain ⟨rfl, rfl⟩ := Prod.mk.inj heq
      trivial

/-- **The reader accepts well-formed amounts only**, by induction on the fuel. -/
theorem parseFields_wellFormed : ∀ (fuel : ℕ) {scope : Scope} {bytes rest : List UInt8}
    {fields : List Field}, parseFields fuel scope bytes = some (fields, rest) →
    ∀ field ∈ fields, field.2.2.WellFormed := by
  intro fuel
  induction fuel with
  | zero =>
    intro scope bytes rest fields h
    cases h
  | succ fuel ih =>
    intro scope bytes rest fields h
    unfold parseFields at h
    split at h
    · obtain ⟨rfl, rfl⟩ := Prod.mk.inj (Option.some.inj h)
      intro field hfield
      cases hfield
    · split at h
      · cases h
      · rename_i first rest' hfirst
        obtain ⟨⟨more, rest''⟩, hmore, heq⟩ := Option.map_eq_some_iff.mp h
        obtain ⟨rfl, rfl⟩ := Prod.mk.inj heq
        intro field hfield
        rcases List.mem_cons.mp hfield with rfl | hfield
        · exact parseField_wellFormed hfirst
        · exact ih hmore field hfield

/-! ## Segments

A writer that emits a segment of bytes for each field is inverted field by field. -/

/-- `bytes` is read as `field`, whatever follows. -/
structure Reads (bytes : List UInt8) (field : Field) : Prop where
  head : ∃ first rest, bytes = first :: rest ∧ first ≠ 0xe1 ∧ first ≠ 0xf1
  parse : ∀ fuel rest, bytes.length ≤ fuel →
    parseField (parseFields fuel) (bytes ++ rest) = some (field, rest)

/-- A header and a value make a field. -/
lemma Reads.of_value {header body : List UInt8} {typeCode fieldCode : ℕ} {value : Value}
    (hhead : ∃ first rest, header = first :: rest ∧ first ≠ 0xe1 ∧ first ≠ 0xf1)
    (hheader : ∀ rest, parseHeader (header ++ rest) = some (typeCode, fieldCode, rest))
    (hvalue : ∀ fuel rest, body.length ≤ fuel →
      parseValue (parseFields fuel) typeCode (body ++ rest) = some (value, rest)) :
    Reads (header ++ body) (typeCode, fieldCode, value) := by
  refine ⟨?_, ?_⟩
  · obtain ⟨first, rest, rfl, h⟩ := hhead
    exact ⟨first, rest ++ body, rfl, h⟩
  · intro fuel rest hfuel
    rw [List.length_append] at hfuel
    unfold parseField
    rw [List.append_assoc, hheader]
    dsimp only
    rw [hvalue fuel rest (by omega)]
    rfl

/-- A segment does not look like the end of a scope. -/
lemma Reads.not_atEnd {bytes : List UInt8} {field : Field} (h : Reads bytes field)
    (scope : Scope) (rest : List UInt8) : scope.atEnd (bytes ++ rest) = none := by
  obtain ⟨first, tail, rfl, hobject, harray⟩ := h.head
  unfold Scope.atEnd
  cases scope with
  | top => rfl
  | object => simp [hobject]
  | array => simp [harray]

/-- The end of a scope is recognised. -/
lemma Scope.atEnd_close (scope : Scope) (rest : List UInt8) (h : scope = .top → rest = []) :
    scope.atEnd (scope.close ++ rest) = some rest := by
  cases scope with
  | top =>
    rw [h rfl]
    rfl
  | object => rfl
  | array => rfl

/-- **The reader inverts a writer of segments**, in any scope.

**Proof sketch.** Induction on the segments: each takes at least one byte, so the fuel lasts,
and none looks like the end of the scope. -/
theorem parseFields_segments (scope : Scope) (rest : List UInt8)
    (hrest : scope = .top → rest = []) :
    ∀ (segments : List (List UInt8 × Field)), (∀ s ∈ segments, Reads s.1 s.2) →
    ∀ fuel, (segments.flatMap Prod.fst).length < fuel →
      parseFields fuel scope (segments.flatMap Prod.fst ++ (scope.close ++ rest)) =
        some (segments.map Prod.snd, rest) := by
  intro segments
  induction segments with
  | nil =>
    intro _ fuel hfuel
    obtain ⟨fuel, rfl⟩ := Nat.exists_eq_add_of_lt hfuel
    rw [List.flatMap_nil, List.nil_append]
    unfold parseFields
    simp [scope.atEnd_close rest hrest]
  | cons segment segments ih =>
    intro hall fuel hfuel
    have hreads := hall segment (List.mem_cons_self ..)
    have hmore := fun s hs => hall s (List.mem_cons_of_mem _ hs)
    have hpos : 0 < segment.1.length := by
      obtain ⟨first, tail, heq, -⟩ := hreads.head
      rw [heq]
      exact Nat.succ_pos _
    rw [List.flatMap_cons, List.length_append] at hfuel
    rw [List.flatMap_cons, List.append_assoc]
    cases fuel with
    | zero => omega
    | succ fuel =>
      unfold parseFields
      rw [hreads.not_atEnd]
      dsimp only
      rw [hreads.parse fuel _ (by omega)]
      dsimp only
      rw [ih hmore fuel (by omega)]
      rfl

/-- `bytes` is a sequence of segments that are read as `fields`. -/
def ReadsAll (bytes : List UInt8) (fields : List Field) : Prop :=
  ∃ segments : List (List UInt8 × Field), (∀ s ∈ segments, Reads s.1 s.2) ∧
    segments.flatMap Prod.fst = bytes ∧ segments.map Prod.snd = fields

lemma ReadsAll.nil : ReadsAll [] [] := ⟨[], by simp, rfl, rfl⟩

lemma Reads.all {bytes : List UInt8} {field : Field} (h : Reads bytes field) :
    ReadsAll bytes [field] := by
  refine ⟨[(bytes, field)], ?_, by simp, rfl⟩
  intro s hs
  obtain rfl := List.mem_singleton.mp hs
  exact h

lemma ReadsAll.append {bytes bytes' : List UInt8} {fields fields' : List Field}
    (h : ReadsAll bytes fields) (h' : ReadsAll bytes' fields') :
    ReadsAll (bytes ++ bytes') (fields ++ fields') := by
  obtain ⟨segments, hreads, rfl, rfl⟩ := h
  obtain ⟨segments', hreads', rfl, rfl⟩ := h'
  refine ⟨segments ++ segments', ?_, by simp, by simp⟩
  intro s hs
  rcases List.mem_append.mp hs with hs | hs
  · exact hreads s hs
  · exact hreads' s hs

/-- Fields in a scope, up to its end marker. -/
lemma ReadsAll.parseFields_eq {bytes : List UInt8} {fields : List Field}
    (h : ReadsAll bytes fields) {scope : Scope} {rest : List UInt8}
    (hrest : scope = .top → rest = []) {fuel : ℕ} (hfuel : bytes.length < fuel) :
    parseFields fuel scope (bytes ++ (scope.close ++ rest)) = some (fields, rest) := by
  obtain ⟨segments, hreads, rfl, rfl⟩ := h
  exact parseFields_segments scope rest hrest segments hreads fuel hfuel

/-- A transaction written field by field is read back. -/
lemma ReadsAll.parse_eq {bytes : List UInt8} {fields : List Field}
    (h : ReadsAll bytes fields) : parse bytes = some fields := by
  have hread : parseFields (bytes.length + 1) .top (bytes ++ (Scope.top.close ++ [])) =
      some (fields, []) := h.parseFields_eq (fun _ => rfl) (Nat.lt_succ_self bytes.length)
  rw [show Scope.top.close ++ [] = [] from rfl, List.append_nil] at hread
  unfold parse
  rw [hread]
  rfl

end GemCore.Xrp
