import GemCore.Protobuf.Grammar

/-!
# Reader and writer agree

What the helpers write is visited as it was written. On any other byte string the reader visits
the fields of the wire format, as far as there are any, but with numbers of 32 bits and lengths of
the pointer width: a number or a length that does not fit is not rejected.

## Main definitions

* `Write.written` — the field a call writes, none for a default.
* `visitAll` — a visitor on a list of fields.
* `Agrees` — the visited fields are those of the data.
* `NumbersFit` — no field of the data has a number over 32 bits.
* `LengthsFit` — no length is cut to one that the data has bytes for.

## Main results

* `visitFields_eq` — the run of the reader on any data, for any visitor.
* `visitFields_written` — reading what was written.
* `visitFields_agrees_iff` — all of it, with the exact condition.
-/

namespace GemCore.Protobuf

open Lib

/-! ## Writing -/

section Writing

variable {width : PointerWidth}

lemma lor_high : ∀ n < 2 ^ 8, n ||| 0x80 = n % 128 + 128 := by
  decide +kernel

/-- Numbers are written in their shortest form. -/
lemma encodeVarint_eq_leb128 (n : ℕ) : encodeVarint n = leb128 n := by
  induction n using Nat.strong_induction_on with
  | _ n ih =>
    rw [encodeVarint]
    by_cases h : 0x80 ≤ n
    · have hbyte : UInt8.ofNat n ||| 0x80 = UInt8.ofNat (n % 128 + 128) := by
        rw [← UInt8.toNat_inj, UInt8.toNat_or, UInt8.toNat_ofNat', UInt8.toNat_ofNat']
        show n % 2 ^ 8 ||| 0x80 = _
        rw [lor_high _ (Nat.mod_lt _ (by norm_num))]
        omega
      rw [if_pos h, leb128_of_le h, hbyte, Nat.shiftRight_eq_div_pow, ih (n / 2 ^ 7) (by omega)]
    · rw [if_neg h, leb128_of_lt (by omega)]

lemma isVarint_encodeVarint {n : ℕ} (h : n < 2 ^ 64) : IsVarint (encodeVarint n) n := by
  rw [encodeVarint_eq_leb128]
  exact ⟨isLeb128_leb128 n, length_leb128_le 9 (by omega), h⟩

lemma isVarint_fieldTag {number wireType : ℕ} (hnumber : number < 2 ^ 32) (hw : wireType < 8) :
    IsVarint (fieldTag number wireType) (8 * number + wireType) := by
  have htag : (number <<< 3) % 2 ^ 64 ||| wireType = 8 * number + wireType := by
    rw [Nat.shiftLeft_eq, Nat.mod_eq_of_lt (by omega), mul_comm,
      ← Nat.two_pow_add_eq_or_of_lt (show wireType < 2 ^ 3 by omega)]
  rw [fieldTag, htag]
  exact isVarint_encodeVarint (by omega)

lemma isField_rawVarint {number n : ℕ} (hnumber : number < 2 ^ 32) (hn : n < 2 ^ 64) :
    IsField (· % width.usize) (encodeRawVarintField number n) ⟨number, .varint n⟩ :=
  .mk (isVarint_fieldTag hnumber (by decide)) (.varint (isVarint_encodeVarint hn))

lemma isField_bytes {number : ℕ} {data : List UInt8} (hnumber : number < 2 ^ 32)
    (hlen : data.length < width.usize) (hne : data ≠ []) :
    IsField (· % width.usize) (encodeBytesField number data) ⟨number, .bytes data⟩ := by
  have hvarint := hlen.trans_le width.usize_le
  rw [encodeBytesField, if_neg hne, List.append_assoc, Nat.mod_eq_of_lt hvarint]
  exact .mk (isVarint_fieldTag hnumber (by decide))
    (.bytes (isVarint_encodeVarint hvarint) (Nat.mod_eq_of_lt hlen))

/-- The fields a call writes: one, or none for a value that is the default. -/
def Write.written : Write → List Field
  | varint fieldNumber value => if value = 0 then [] else [⟨fieldNumber, .varint value⟩]
  | rawVarint fieldNumber value => [⟨fieldNumber, .varint value⟩]
  | bytes fieldNumber data | message fieldNumber data => ofBytes fieldNumber data
  | string fieldNumber value => ofBytes fieldNumber value.toUTF8.data.toList
  | optionalMessage fieldNumber value | optionalBytes fieldNumber value =>
    value.elim [] (ofBytes fieldNumber)
  | optionalString fieldNumber value =>
    value.elim [] fun value => ofBytes fieldNumber value.toUTF8.data.toList
  | optionalU64 fieldNumber value =>
    value.elim [] fun value => [⟨fieldNumber, .varint value⟩]
  | optionalBool fieldNumber value =>
    value.elim [] fun value => [⟨fieldNumber, .varint value.toNat⟩]
where
  /-- No bytes are the default. -/
  ofBytes (fieldNumber : ℕ) (data : List UInt8) : List Field :=
    if data = [] then [] else [⟨fieldNumber, .bytes data⟩]

/-- The field number of a call. -/
def Write.number : Write → ℕ
  | varint fieldNumber _ | rawVarint fieldNumber _ | bytes fieldNumber _ | string fieldNumber _
  | message fieldNumber _ | optionalMessage fieldNumber _ | optionalString fieldNumber _
  | optionalBytes fieldNumber _ | optionalU64 fieldNumber _ | optionalBool fieldNumber _ =>
    fieldNumber

/-- Integers have 64 bits. -/
def Write.ValueFits : Write → Prop
  | varint _ value | rawVarint _ value => value < 2 ^ 64
  | optionalU64 _ value => ∀ n, value = some n → n < 2 ^ 64
  | _ => True

/-- The number of a call is one of the wire format, and its value has the type of the source. -/
@[mk_iff]
structure Write.InRange (w : Write) : Prop where
  one_le : 1 ≤ w.number
  number_lt : w.number < 2 ^ 29
  value : w.ValueFits

/-- What is written has the number it is written under. -/
lemma Write.number_of_mem {w : Write} {f : Field} (h : f ∈ w.written) : f.number = w.number := by
  have hbytes : ∀ {number : ℕ} {data : List UInt8}, f ∈ written.ofBytes number data →
      f.number = number := by
    intro number data h
    rw [written.ofBytes] at h
    split at h
    · cases h
    · rw [List.mem_singleton.mp h]
  cases w with
  | varint fieldNumber value =>
    rw [written] at h
    split at h
    · cases h
    · rw [List.mem_singleton.mp h]
      rfl
  | rawVarint fieldNumber value =>
    rw [List.mem_singleton.mp h]
    rfl
  | bytes fieldNumber data | string fieldNumber value | message fieldNumber data => exact hbytes h
  | optionalMessage fieldNumber value =>
    cases value with
    | none => cases h
    | some data => exact hbytes h
  | optionalString fieldNumber value =>
    cases value with
    | none => cases h
    | some value => exact hbytes h
  | optionalBytes fieldNumber value =>
    cases value with
    | none => cases h
    | some data => exact hbytes h
  | optionalU64 fieldNumber value | optionalBool fieldNumber value =>
    cases value with
    | none => cases h
    | some value =>
      rw [List.mem_singleton.mp h]
      rfl

/-- A call that writes bytes writes the field, or nothing. -/
lemma isWire_bytes {number : ℕ} {data : List UInt8} (hnumber : number < 2 ^ 32)
    (hlen : (encodeBytesField number data).length < width.usize) :
    IsWire (· % width.usize) (encodeBytesField number data) (Write.written.ofBytes number data) := by
  rw [Write.written.ofBytes]
  by_cases h : data = []
  · rw [encodeBytesField, if_pos h, if_pos h]
    exact .nil
  · have hdata : data.length < width.usize := by
      rw [encodeBytesField, if_neg h, List.length_append] at hlen
      omega
    rw [if_neg h, ← List.append_nil (encodeBytesField number data)]
    exact .cons (isField_bytes hnumber hdata h) .nil

lemma isWire_rawVarint {number n : ℕ} (hnumber : number < 2 ^ 32) (hn : n < 2 ^ 64) :
    IsWire (· % width.usize) (encodeRawVarintField number n) [⟨number, .varint n⟩] := by
  rw [← List.append_nil (encodeRawVarintField number n)]
  exact .cons (isField_rawVarint hnumber hn) .nil

lemma encodeMessageField_eq (number : ℕ) (data : List UInt8) :
    encodeMessageField number data = encodeBytesField number data := by
  rw [encodeMessageField]
  split
  · rename_i h
    rw [encodeBytesField, if_pos h]
  · rfl

/-- **A call writes its field.** -/
theorem Write.isWire_encode {w : Write} (h : w.InRange)
    (hlen : w.encode.length < width.usize) : IsWire (· % width.usize) w.encode w.written := by
  have hnumber : w.number < 2 ^ 32 := by
    have := h.number_lt
    omega
  cases w with
  | varint fieldNumber value =>
    by_cases hzero : value = 0
    · simp only [encode, written, encodeVarintField, if_pos hzero]
      exact .nil
    · simp only [encode, written, encodeVarintField, if_neg hzero]
      exact isWire_rawVarint hnumber h.value
  | rawVarint fieldNumber value => exact isWire_rawVarint hnumber h.value
  | bytes fieldNumber data | string fieldNumber value => exact isWire_bytes hnumber hlen
  | message fieldNumber data =>
    simp only [encode, encodeMessageField_eq] at hlen ⊢
    exact isWire_bytes hnumber hlen
  | optionalMessage fieldNumber value =>
    cases value with
    | none => exact .nil
    | some data =>
      simp only [encode, encodeOptionalMessageField, Option.map_some, Option.getD_some,
        encodeMessageField_eq] at hlen ⊢
      exact isWire_bytes hnumber hlen
  | optionalString fieldNumber value =>
    cases value with
    | none => exact .nil
    | some value => exact isWire_bytes hnumber hlen
  | optionalBytes fieldNumber value =>
    cases value with
    | none => exact .nil
    | some data => exact isWire_bytes hnumber hlen
  | optionalU64 fieldNumber value =>
    cases value with
    | none => exact .nil
    | some value => exact isWire_rawVarint hnumber (h.value value rfl)
  | optionalBool fieldNumber value =>
    cases value with
    | none => exact .nil
    | some value =>
      have hvalue : value.toNat < 2 ^ 64 := by cases value <;> decide
      exact isWire_rawVarint hnumber hvalue

/-- Sequences of fields append. -/
lemma IsWire.append {cut : ℕ → ℕ} {a b : List UInt8} {fs gs : List Field} (ha : IsWire cut a fs)
    (hb : IsWire cut b gs) : IsWire cut (a ++ b) (fs ++ gs) := by
  induction ha with
  | nil => exact hb
  | cons hf _ ih =>
    rw [List.append_assoc]
    exact .cons hf ih

/-- Calls write their fields in order. -/
lemma isWire_flatMap {writes : List Write} (h : ∀ w ∈ writes, w.InRange)
    (hlen : (writes.flatMap Write.encode).length < width.usize) :
    IsWire (· % width.usize) (writes.flatMap Write.encode) (writes.flatMap Write.written) := by
  induction writes with
  | nil => exact .nil
  | cons w ws ih =>
    rw [List.flatMap_cons, List.length_append] at hlen
    rw [List.flatMap_cons, List.flatMap_cons]
    have hw : IsWire (· % width.usize) w.encode w.written :=
      Write.isWire_encode (h w (by simp)) (by omega)
    exact hw.append (ih (fun w' hw' => h w' (by simp [hw'])) (by omega))

end Writing

/-! ## Visiting -/

section Visiting

variable {σ : Type} {visitor : σ → Field → σ × Except Fault Unit} {width : PointerWidth}
  {data : List UInt8}

/-- A visitor on a list of fields, up to its first failure. -/
def visitAll (visitor : σ → Field → σ × Except Fault Unit) :
    List Field → σ → σ × Except Fault Unit
  | [], s => (s, .ok ())
  | f :: fs, s =>
    match visitor s f with
    | (s, .error fault) => (s, .error fault)
    | (s, .ok ()) => visitAll visitor fs s

/-- Continue after a visitor that did not fail. -/
def andThen (x : σ × Except Fault Unit) (out : Except Fault Unit) : σ × Except Fault Unit :=
  match x with
  | (s, .error fault) => (s, .error fault)
  | (s, .ok ()) => (s, out)

lemma andThen_ok (x : σ × Except Fault Unit) : andThen x (.ok ()) = x := by
  obtain ⟨s, outcome⟩ := x
  cases outcome <;> rfl

/-- The fields of the data as far as they go: there is nothing after them, or nothing that is a
field. -/
structure Maximal (width : PointerWidth) (data consumed : List UInt8) (fs : List Field)
    (out : Except Fault Unit) : Prop where
  wire : IsWire (· % width.usize) consumed fs
  split : ∃ rest, data = consumed ++ rest ∧
    (out = .ok () ∧ rest = [] ∨
      (∃ text, out = .error (.error text)) ∧ rest ≠ [] ∧
        ∀ b r f, rest = b ++ r → ¬IsField (· % width.usize) b f)

/-- The turns of the loop from a position on. -/
lemma visitLoop_eq (hlen : data.length < width.usize) (position : ℕ) :
    ∃ consumed fs out, Maximal width (data.drop position) consumed fs out ∧
      ∀ (visitor : σ → Field → σ × Except Fault Unit) s, visitLoop width visitor data position s =
        andThen (visitAll visitor (fs.map Field.narrow) s) out := by
  induction hk : data.length - position using Nat.strong_induction_on generalizing position with
  | _ k ih =>
    by_cases hlt : position < data.length
    · cases hread : readField width data position with
      | error fault =>
        have htext : ∃ text, fault = .error text := by
          cases fault with
          | error text => exact ⟨text, rfl⟩
          | panic => exact absurd hread readField_ne_panic
        obtain ⟨text, rfl⟩ := htext
        refine ⟨[], [], .error (.error text), ⟨.nil, data.drop position, rfl,
          .inr ⟨⟨text, rfl⟩, ?_, fun b r f hb hf => ?_⟩⟩, fun visitor s => ?_⟩
        · rw [Ne, List.drop_eq_nil_iff]
          omega
        · rw [(readField_eq_ok_iff hlen).mpr ⟨b, r, f, hb, hf, rfl, rfl⟩] at hread
          cases hread
        · rw [visitLoop, if_pos hlt]
          split
          · rename_i fault' hfault
            rw [hread] at hfault
            cases hfault
            rfl
          · rename_i field next hok
            rw [hread] at hok
            cases hok
      | ok result =>
        obtain ⟨field, next⟩ := result
        have hnext := readField_lt hread
        obtain ⟨bytes, rest, f, hdrop, hf, rfl, rfl⟩ := (readField_eq_ok_iff hlen).mp hread
        obtain ⟨consumed, fs, out, ⟨hwire, rest', hsplit, hout⟩, hvisit⟩ :=
          ih _ (by omega) (position + bytes.length) rfl
        rw [← List.drop_drop, hdrop, List.drop_left] at hsplit
        refine ⟨bytes ++ consumed, f :: fs, out, ⟨.cons hf hwire, rest', ?_, hout⟩,
          fun visitor s => ?_⟩
        · rw [hdrop, hsplit, List.append_assoc]
        · rw [visitLoop, if_pos hlt]
          split
          · rename_i fault hfault
            rw [hread] at hfault
            cases hfault
          · rename_i field next hok
            rw [hread] at hok
            cases hok
            rw [List.map_cons, visitAll]
            cases visitor s f.narrow with
            | mk s' outcome =>
              cases outcome with
              | error fault => rfl
              | ok u => exact hvisit visitor s'
    · refine ⟨[], [], .ok (), ⟨.nil, [], ?_, .inl ⟨rfl, rfl⟩⟩, fun visitor s => ?_⟩
      · rw [List.drop_eq_nil_of_le (by omega)]
        rfl
      · rw [visitLoop, if_neg hlt]
        rfl

/-- **The run of the reader**: it visits the fields of the data as far as they go, with their
numbers cut to 32 bits, unless the visitor stops it. -/
theorem visitFields_eq (σ : Type) (hlen : data.length < width.usize) :
    ∃ consumed fs out, Maximal width data consumed fs out ∧
      ∀ (visitor : σ → Field → σ × Except Fault Unit) s, visitFields width visitor data s =
        andThen (visitAll visitor (fs.map Field.narrow) s) out :=
  visitLoop_eq hlen 0

/-- Two sequences at the front of the same data: one continues the other. -/
lemma IsWire.comparable {cut : ℕ → ℕ} {a b r s : List UInt8} {fs gs : List Field}
    (ha : IsWire cut a fs) (hb : IsWire cut b gs) (h : a ++ r = b ++ s) :
    (∃ b' gs', b = a ++ b' ∧ gs = fs ++ gs' ∧ IsWire cut b' gs') ∨
      ∃ a' fs', a = b ++ a' ∧ fs = gs ++ fs' ∧ IsWire cut a' fs' := by
  induction ha generalizing b gs with
  | nil => exact .inl ⟨b, gs, rfl, rfl, hb⟩
  | @cons x rest f fs hf hrest ih =>
    cases hb with
    | nil => exact .inr ⟨x ++ rest, f :: fs, rfl, rfl, .cons hf hrest⟩
    | @cons y rest' g gs hg hrest' =>
      rw [List.append_assoc, List.append_assoc] at h
      obtain ⟨rfl, rfl⟩ := hf.append_inj hg h
      obtain ⟨b', gs', rfl, rfl, hw⟩ | ⟨a', fs', rfl, rfl, hw⟩ :=
        ih hrest' (List.append_cancel_left h)
      · exact .inl ⟨b', gs', by rw [List.append_assoc], rfl, hw⟩
      · exact .inr ⟨a', fs', by rw [List.append_assoc], rfl, hw⟩

lemma IsWire.eq_nil {cut : ℕ → ℕ} {fs : List Field} (h : IsWire cut [] fs) : fs = [] := by
  generalize hb : ([] : List UInt8) = b at h
  cases h with
  | nil => rfl
  | cons hf hrest =>
    have hpos := hf.length_pos
    have := congrArg List.length hb
    simp only [List.length_nil, List.length_append] at this
    omega

/-- No sequence at the front of the data goes further than the fields the reader visits. -/
theorem Maximal.continues {consumed b s : List UInt8} {fs gs : List Field}
    {out : Except Fault Unit} (h : Maximal width data consumed fs out)
    (hb : IsWire (· % width.usize) b gs) (hdata : data = b ++ s) :
    ∃ a' fs', consumed = b ++ a' ∧ fs = gs ++ fs' ∧ IsWire (· % width.usize) a' fs' := by
  obtain ⟨rest, hsplit, hout⟩ := h.split
  rw [hsplit] at hdata
  obtain ⟨b', gs', rfl, rfl, hw⟩ | hcontinues := h.wire.comparable hb hdata
  · cases hw with
    | nil => exact ⟨[], [], by simp, by simp, .nil⟩
    | @cons x rest' f gs' hf hw =>
      rw [List.append_assoc, List.append_assoc] at hdata
      have hrest := List.append_cancel_left hdata
      obtain ⟨-, rfl⟩ | ⟨-, -, hnone⟩ := hout
      · have hpos := hf.length_pos
        have := congrArg List.length hrest
        simp only [List.length_nil, List.length_append] at this
        omega
      · exact absurd hf (hnone x _ f hrest)
  · exact hcontinues

/-- Data that is a sequence of fields is visited to its end. -/
lemma Maximal.eq_of_isWire {consumed : List UInt8} {fs gs : List Field}
    {out : Except Fault Unit} (h : Maximal width data consumed fs out)
    (hgs : IsWire (· % width.usize) data gs) : fs = gs ∧ out = .ok () := by
  obtain ⟨rest, hsplit, hout⟩ := h.split
  obtain ⟨a', fs', rfl, rfl, hw⟩ := h.continues hgs (List.append_nil data).symm
  have hnil : a' ++ rest = [] := by
    rw [List.append_assoc] at hsplit
    exact List.self_eq_append_right.mp hsplit
  obtain ⟨rfl, rfl⟩ := List.append_eq_nil_iff.mp hnil
  refine ⟨by rw [hw.eq_nil, List.append_nil], ?_⟩
  obtain ⟨hok, -⟩ | ⟨-, hne, -⟩ := hout
  · exact hok
  · exact absurd rfl hne

lemma map_narrow {fs : List Field} :
    fs.map Field.narrow = fs ↔ ∀ f ∈ fs, f.number < 2 ^ 32 := by
  have hnarrow : ∀ f : Field, f.narrow = f ↔ f.number < 2 ^ 32 := by
    intro f
    rw [Field.narrow, Field.mk.injEq, and_iff_left rfl]
    omega
  induction fs with
  | nil => simp
  | cons f fs ih => simp [hnarrow, ih]

/-- Data that is a sequence of fields is visited field by field. -/
lemma visitFields_of_isWire {fs : List Field} (hlen : data.length < width.usize)
    (h : IsWire (· % width.usize) data fs) (s : σ) :
    visitFields width visitor data s = visitAll visitor (fs.map Field.narrow) s := by
  obtain ⟨consumed, gs, out, hmax, hvisit⟩ := visitFields_eq σ hlen
  obtain ⟨rfl, rfl⟩ := hmax.eq_of_isWire h
  rw [hvisit, andThen_ok]

/-- **Reading what was written**: any visitor sees the fields in order, with their numbers and
values. -/
theorem visitFields_written {writes : List Write} (h : ∀ w ∈ writes, w.InRange)
    (hlen : (writes.flatMap Write.encode).length < width.usize) (s : σ) :
    visitFields width visitor (writes.flatMap Write.encode) s =
      visitAll visitor (writes.flatMap Write.written) s := by
  have hnumbers : ∀ f ∈ writes.flatMap Write.written, f.number < 2 ^ 32 := by
    intro f hf
    obtain ⟨w, hw, hf⟩ := List.mem_flatMap.mp hf
    have := (h w hw).number_lt
    rw [Write.number_of_mem hf]
    omega
  rw [visitFields_of_isWire hlen (isWire_flatMap h hlen), map_narrow.mpr hnumbers]

end Visiting

/-! ## Agreement -/

section Agreement

/-- The visitor that keeps every field. -/
def record (log : List Field) (f : Field) : List Field × Except Fault Unit := (log ++ [f], .ok ())

lemma visitAll_record (fs log : List Field) : visitAll record fs log = (log ++ fs, .ok ()) := by
  induction fs generalizing log with
  | nil => rw [visitAll, List.append_nil]
  | cons f fs ih =>
    show visitAll record fs (log ++ [f]) = _
    rw [ih, List.append_assoc]
    rfl

/-- Fields of the wire format that are short enough are fields for the reader. -/
lemma IsField.cut {width : PointerWidth} {b : List UInt8} {f : Field} (h : IsField id b f)
    (hlen : b.length < width.usize) : IsField (· % width.usize) b f := by
  cases h with
  | mk ht hv =>
    refine .mk ht ?_
    cases hv with
    | varint hv => exact .varint hv
    | fixed64 hb => exact .fixed64 hb
    | fixed32 hb => exact .fixed32 hb
    | @bytes l b n hl hn =>
      obtain rfl : n = b.length := hn
      simp only [List.length_append] at hlen
      exact .bytes hl (Nat.mod_eq_of_lt (by omega))

lemma IsWire.cut {width : PointerWidth} {b : List UInt8} {fs : List Field} (h : IsWire id b fs)
    (hlen : b.length < width.usize) : IsWire (· % width.usize) b fs := by
  induction h with
  | nil => exact .nil
  | cons hf _ ih =>
    rw [List.length_append] at hlen
    exact .cons (hf.cut (by omega)) (ih (by omega))

/-- A field of the wire format with bytes in it has their length in front of them. -/
lemma IsField.length_eq {x r t l s b : List UInt8} {number number' n : ℕ}
    (h : IsField id x ⟨number, .bytes b⟩) (heq : x ++ r = t ++ (l ++ s))
    (ht : IsVarint t (8 * number' + wireLengthDelimited)) (hl : IsVarint l n) : n = b.length := by
  cases h with
  | mk ht' hv =>
    rw [List.append_assoc] at heq
    obtain ⟨rfl, -⟩ := ht'.append_inj ht heq
    cases hv with
    | bytes hl' hn =>
      have hrest := List.append_cancel_left heq
      rw [List.append_assoc] at hrest
      exact (hl'.append_inj hl hrest).2.symm.trans hn

variable (width : PointerWidth) (data : List UInt8)

/-- **The reader agrees with the data**: it does not panic, the fields it visits are fields of the
data with the numbers of their tags, and it visits all of them if it returns no error. -/
def Agrees : Prop :=
  (visitFields width record data []).2 ≠ .error .panic ∧
    ∃ consumed rest, data = consumed ++ rest ∧
      IsWire id consumed (visitFields width record data []).1 ∧
      ((visitFields width record data []).2 = .ok () → rest = [])

/-- No field of the data has a number over 32 bits. -/
def NumbersFit : Prop :=
  ∀ consumed rest fs, data = consumed ++ rest → IsWire id consumed fs →
    ∀ f ∈ fs, f.number < 2 ^ 32

/-- Where a length over the pointer width stands behind fields of the data and a tag, there are fewer
bytes after it than the pointer width keeps of it. -/
def LengthsFit : Prop :=
  ∀ consumed t l rest fs number n, data = consumed ++ (t ++ (l ++ rest)) → IsWire id consumed fs →
    IsVarint t (8 * number + wireLengthDelimited) → IsVarint l n → width.usize ≤ n →
    rest.length < n % width.usize

variable {width data}

/-- There is no length over 64 bits. -/
lemma lengthsFit_bits64 : LengthsFit .bits64 data :=
  fun _ _ _ _ _ _ _ _ _ _ hl hn => absurd hl.lt (Nat.not_lt.mpr hn)

/-- Where the lengths fit, the fields that the reader takes are fields of the wire format. -/
lemma LengthsFit.isWire (h : LengthsFit width data) {b : List UInt8} {fs : List Field}
    (hb : IsWire (· % width.usize) b fs) {a r : List UInt8} {gs : List Field} (ha : IsWire id a gs)
    (hdata : data = a ++ (b ++ r)) : IsWire id b fs := by
  induction hb generalizing a gs with
  | nil => exact .nil
  | @cons x rest f fs hf _ ih =>
    have hfield : IsField id x f := by
      cases hf with
      | mk ht hv =>
        refine .mk ht ?_
        cases hv with
        | varint hv => exact .varint hv
        | fixed64 hb => exact .fixed64 hb
        | fixed32 hb => exact .fixed32 hb
        | @bytes l b n hl hn =>
          refine .bytes hl ?_
          by_contra hne
          have hlong : width.usize ≤ n := by
            by_contra hlt
            exact hne ((Nat.mod_eq_of_lt (Nat.lt_of_not_le hlt)).symm.trans hn)
          simp only [List.append_assoc] at hdata
          have hshort := h _ _ _ _ _ _ _ hdata ha ht hl hlong
          rw [List.length_append] at hshort
          omega
    refine .cons hfield (ih (ha.append (.cons hfield .nil)) ?_)
    rw [hdata]
    simp only [List.append_assoc, List.nil_append]

/-- At the front of the data the pointer width cuts no length. -/
lemma IsWire.cut_front (hlen : data.length < width.usize) {c r : List UInt8} {gs : List Field}
    (hdata : data = c ++ r) (h : IsWire id c gs) : IsWire (· % width.usize) c gs := by
  refine h.cut ?_
  rw [hdata, List.length_append] at hlen
  omega

/-- Where the reader takes fields of the wire format only, the lengths fit: one that does not would be
a field of it with another length. -/
lemma Maximal.lengthsFit (hlen : data.length < width.usize) {consumed : List UInt8} {fs : List Field}
    {out : Except Fault Unit} (hmax : Maximal width data consumed fs out)
    (hwire : IsWire id consumed fs) : LengthsFit width data := by
  obtain ⟨rest, hsplit, -⟩ := hmax.split
  intro c t l r gs number n hdata hw ht hl hn
  by_contra hle
  have htake : n % width.usize = (r.take (n % width.usize)).length := by
    rw [List.length_take]
    omega
  have hfield : IsWire (· % width.usize) _ [⟨number, .bytes (r.take (n % width.usize))⟩] :=
    .cons (.mk ht (.bytes hl htake)) .nil
  obtain ⟨a', fs', -, hfs', -⟩ := hmax.continues (s := r.drop (n % width.usize))
    ((hw.cut_front hlen hdata).append hfield) (by
      rw [hdata]
      simp only [List.append_assoc, List.append_nil, List.take_append_drop])
  obtain ⟨b', gs', hb', hgs', hw'⟩ | ⟨_, _, -, hlonger, -⟩ :=
    hw.comparable hwire (hdata.symm.trans hsplit)
  · have hnext := hgs'.symm.trans hfs'
    rw [List.append_assoc] at hnext
    obtain rfl := List.append_cancel_left hnext
    cases hw' with
    | @cons x b'' _ _ hf _ =>
      rw [hb', hdata, List.append_assoc, List.append_assoc] at hsplit
      have heq := hf.length_eq (List.append_cancel_left hsplit).symm ht hl
      rw [← htake] at heq
      exact absurd hn (Nat.not_le.mpr (heq ▸ Nat.mod_lt n (by have := width.le_usize; omega)))
  · have hlength := congrArg List.length (hlonger.trans (congrArg (· ++ _) hfs'))
    simp only [List.length_append, List.length_singleton] at hlength
    omega

/-- The reader agrees with the data exactly when every number and every length fits.

**Proof sketch.** The reader visits a sequence of fields with lengths cut to the pointer width. If it
agrees, that is a sequence of the wire format with the same numbers, and every sequence at the front
of the data is part of it; a length that does not fit would be a field of it with another length. -/
theorem agrees_iff_fit (hlen : data.length < width.usize) :
    Agrees width data ↔ NumbersFit data ∧ LengthsFit width data := by
  obtain ⟨consumed, fs, out, hmax, hvisit⟩ := visitFields_eq (List Field) hlen
  have hrun : visitFields width record data [] = (fs.map Field.narrow, out) := by
    rw [hvisit, visitAll_record]
    rfl
  obtain ⟨rest, hsplit, hout⟩ := hmax.split
  rw [Agrees, hrun]
  constructor
  · rintro ⟨-, consumed', rest', hsplit', hwire, -⟩
    obtain ⟨a', fs', hconsumed, hfs, hw⟩ :=
      hmax.continues (hwire.cut_front hlen hsplit') hsplit'
    have hlength := congrArg List.length hfs
    rw [List.length_append, List.length_map] at hlength
    obtain rfl : fs' = [] := List.eq_nil_of_length_eq_zero (by omega)
    have hnarrow : fs.map Field.narrow = fs := by rw [← List.append_nil (fs.map _), ← hfs]
    cases hw
    obtain rfl : consumed = consumed' := hconsumed.trans (List.append_nil consumed')
    rw [hnarrow] at hwire
    refine ⟨fun c r gs hgs hw f hf => ?_, hmax.lengthsFit hlen hwire⟩
    obtain ⟨_, gs', -, rfl, -⟩ := hmax.continues (hw.cut_front hlen hgs) hgs
    exact map_narrow.mp hnarrow f (List.mem_append_left gs' hf)
  · rintro ⟨hnumbers, hlengths⟩
    have hwire : IsWire id consumed fs := hlengths.isWire hmax.wire .nil hsplit
    rw [map_narrow.mpr (hnumbers consumed rest fs hsplit hwire)]
    obtain ⟨rfl, rfl⟩ | ⟨⟨text, rfl⟩, -, -⟩ := hout
    · exact ⟨by simp, consumed, [], hsplit, hwire, fun _ => rfl⟩
    · exact ⟨by simp, consumed, rest, hsplit, hwire, fun h => by cases h⟩
/-- **Reader and writer agree.** What the helpers write is visited as written, a number is read
back from its bytes, and on any data the reader agrees with the data exactly when no field of it
has a number over 32 bits, and no length over the pointer width is cut to one that fits. -/
theorem visitFields_agrees_iff (width : PointerWidth) (data : List UInt8)
    (hlen : data.length < width.usize) :
    (∀ writes : List Write, (∀ w ∈ writes, w.InRange) →
        (writes.flatMap Write.encode).length < width.usize →
        ∀ (σ : Type) (visitor : σ → Field → σ × Except Fault Unit) (s : σ),
          visitFields width visitor (writes.flatMap Write.encode) s =
            visitAll visitor (writes.flatMap Write.written) s) ∧
      (∀ n < 2 ^ 64, ∀ before rest, readVarint (before ++ encodeVarint n ++ rest) before.length =
        .ok (n, before.length + (encodeVarint n).length)) ∧
      (Agrees width data ↔ NumbersFit data ∧ LengthsFit width data) := by
  refine ⟨fun writes h hlen σ visitor s => visitFields_written h hlen s,
    fun n hn before rest => ?_, agrees_iff_fit hlen⟩
  refine readVarint_eq_ok_iff.mpr ⟨encodeVarint n, rest, ?_, isVarint_encodeVarint hn, rfl⟩
  rw [List.append_assoc, List.drop_left]

/-- A zero that is omitted, a zero that is kept, and two bytes. -/
theorem visitFields_agrees_iff_sample :
    visitFields .bits32 record
        ([.varint 1 0, .rawVarint 2 0, .bytes 3 [7, 8]].flatMap Write.encode) [] =
      ([⟨2, .varint 0⟩, ⟨3, .bytes [7, 8]⟩], .ok ()) := by
  have hlen : ([.varint 1 0, .rawVarint 2 0, .bytes 3 [7, 8]].flatMap Write.encode).length <
      PointerWidth.usize .bits32 := by
    simp [Write.encode, encodeVarintField, encodeRawVarintField, encodeBytesField, fieldTag,
      encodeVarint, wireVarint, wireLengthDelimited, PointerWidth.usize]
  rw [(visitFields_agrees_iff .bits32 [] (by decide)).1 _
    (by simp [Write.number, Write.ValueFits, Write.inRange_iff]) hlen]
  rfl

/-- The tag of a varint field with the number `2 ^ 32 + 1`, and the value 7: it is visited as
field 1. With pointers of 32 bits two bytes after the length `2 ^ 32 + 2` are visited as a field. -/
theorem visitFields_narrows :
    (visitFields .bits64 record [0x88, 0x80, 0x80, 0x80, 0x80, 0x01, 0x07] [] =
        ([⟨1, .varint 7⟩], .ok ()) ∧
      IsWire id [0x88, 0x80, 0x80, 0x80, 0x80, 0x01, 0x07] [⟨2 ^ 32 + 1, .varint 7⟩] ∧
      ¬Agrees .bits64 [0x88, 0x80, 0x80, 0x80, 0x80, 0x01, 0x07]) ∧
    visitFields .bits32 record [0x0a, 0x82, 0x80, 0x80, 0x80, 0x10, 0x07, 0x08] [] =
        ([⟨1, .bytes [7, 8]⟩], .ok ()) ∧
      ¬Agrees .bits32 [0x0a, 0x82, 0x80, 0x80, 0x80, 0x10, 0x07, 0x08] := by
  have htag : encodeVarint (8 * (2 ^ 32 + 1) + wireVarint) =
      [0x88, 0x80, 0x80, 0x80, 0x80, 0x01] := by
    simp [encodeVarint, wireVarint, Nat.shiftRight_eq_div_pow]
    decide
  have hvalue : encodeVarint 7 = [0x07] := by
    simp [encodeVarint]
  have hlength : encodeVarint (2 ^ 32 + 2) = [0x82, 0x80, 0x80, 0x80, 0x10] := by
    simp [encodeVarint, Nat.shiftRight_eq_div_pow]
    decide
  have hbytesTag : encodeVarint (8 * 1 + wireLengthDelimited) = [0x0a] := by
    simp [encodeVarint, wireLengthDelimited]
  have ht : IsVarint _ (8 * (2 ^ 32 + 1) + wireVarint) := isVarint_encodeVarint (by decide)
  have hv : IsVarint _ 7 := isVarint_encodeVarint (by decide)
  have ht' : IsVarint _ (8 * 1 + wireLengthDelimited) := isVarint_encodeVarint (by decide)
  have hl : IsVarint _ (2 ^ 32 + 2) := isVarint_encodeVarint (by decide)
  rw [htag] at ht
  rw [hvalue] at hv
  rw [hbytesTag] at ht'
  rw [hlength] at hl
  have hwire : ∀ cut, IsWire cut [0x88, 0x80, 0x80, 0x80, 0x80, 0x01, 0x07]
      [⟨2 ^ 32 + 1, .varint 7⟩] := fun cut => .cons (.mk ht (.varint hv)) .nil
  have hcut : IsWire (· % PointerWidth.usize .bits32)
      [0x0a, 0x82, 0x80, 0x80, 0x80, 0x10, 0x07, 0x08] [⟨1, .bytes [7, 8]⟩] :=
    .cons (.mk ht' (.bytes (b := [7, 8]) hl rfl)) .nil
  refine ⟨⟨visitFields_of_isWire (by decide) (hwire _) [], hwire id, fun h => ?_⟩,
    visitFields_of_isWire (by decide) hcut [], fun h => ?_⟩
  · rw [agrees_iff_fit (by decide)] at h
    exact absurd (h.1 _ [] _ rfl (hwire id) _ (List.mem_singleton.mpr rfl)) (by decide)
  · rw [agrees_iff_fit (by decide)] at h
    exact absurd (h.2 [] _ _ [7, 8] [] _ _ rfl .nil ht' hl (by decide)) (by decide)

end Agreement

end GemCore.Protobuf
