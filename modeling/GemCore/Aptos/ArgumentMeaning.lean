import GemCore.Aptos.Argument
import GemCore.Aptos.TypeTagText
import GemCore.Signer.KeyForms

/-!
# What the arguments of Move functions mean

That the bytes of an argument are those of the value that its JSON denotes: they are read back by a
decoder for the type as that value, with nothing left over. What is denoted is stated without the parsers
of the source. It reads two kinds of numbers as something else: at an address the decimal text of a number
as hex, and at a boolean a number that is no unsigned integer as false. Neither happens at a type that is
inferred.

## Main definitions

* `decodeValue` — a decoder for the values of a type.
* `Denotes` — what JSON denotes of a type.
* `Misread` — where the source reads a number as something else.

## Main results

* `decodeValue_serialize` — a value is read back from its bytes.
* `denotes_of_parseMoveValue` — what is read is what is denoted.
* `takes_of_inferTypeTag` — what is denoted is read at the type that is inferred.
* `encodeArgument_spec` — the two together, for the arguments of entry functions.
-/

namespace GemCore.Aptos

open Lib

/-! ## A decoder -/

/-- A number of so many bytes, least significant first. -/
def readNat (n : ℕ) : Bcs.Reader ℕ := fun bytes =>
  (Bcs.readFixed n bytes).map fun read => (ofLe read.1, read.2)

/-- An address. -/
def readAddress : Bcs.Reader AccountAddress := fun bytes =>
  (Bcs.readFixed 32 bytes).bind fun read =>
    if h : read.1.length = 32 then some (⟨read.1, h⟩, read.2) else none

/-- **A BCS decoder** for the values of a type. An option is a sequence of at most one item. -/
def decodeValue : TypeTag → Bcs.Reader MoveValue
  | .bool, bytes => (Bcs.readBool bytes).map fun read => (.bool read.1, read.2)
  | .u8, bytes => (readNat 1 bytes).map fun read => (.u8 (.ofNat 8 read.1), read.2)
  | .u16, bytes => (readNat 2 bytes).map fun read => (.u16 (.ofNat 16 read.1), read.2)
  | .u32, bytes => (readNat 4 bytes).map fun read => (.u32 (.ofNat 32 read.1), read.2)
  | .u64, bytes => (readNat 8 bytes).map fun read => (.u64 (.ofNat 64 read.1), read.2)
  | .u128, bytes => (readNat 16 bytes).map fun read => (.u128 (.ofNat 128 read.1), read.2)
  | .u256, bytes => (readAddress bytes).map fun read => (.u256 read.1, read.2)
  | .address, bytes => (readAddress bytes).map fun read => (.address read.1, read.2)
  | .signer, bytes => (readAddress bytes).map fun read => (.signer read.1, read.2)
  | .vector inner, bytes =>
    (Bcs.readSeq (decodeValue inner) bytes).map fun read => (.vector read.1, read.2)
  | .struct address moduleName name (inner :: _), bytes =>
    if isOptionStruct address moduleName name then
      (Bcs.readSeq (decodeValue inner) bytes).bind fun read =>
        if read.1.length ≤ 1 then some (.vector read.1, read.2) else none
    else none
  | .struct _ _ _ [], _ => none

/-- The type of options. -/
def optionOf (inner : TypeTag) (rest : List TypeTag) : TypeTag :=
  .struct .one "option".toList "Option".toList (inner :: rest)

/-- The values of a type. -/
inductive HasType : TypeTag → MoveValue → Prop
  | bool (value : Bool) : HasType .bool (.bool value)
  | u8 (value : BitVec 8) : HasType .u8 (.u8 value)
  | u16 (value : BitVec 16) : HasType .u16 (.u16 value)
  | u32 (value : BitVec 32) : HasType .u32 (.u32 value)
  | u64 (value : BitVec 64) : HasType .u64 (.u64 value)
  | u128 (value : BitVec 128) : HasType .u128 (.u128 value)
  | u256 (value : FixedBytes 32) : HasType .u256 (.u256 value)
  | address (value : AccountAddress) : HasType .address (.address value)
  | signer (value : AccountAddress) : HasType .signer (.signer value)
  | vector {inner : TypeTag} {values : List MoveValue} (h : ∀ x ∈ values, HasType inner x) :
      HasType (.vector inner) (.vector values)
  | option {inner : TypeTag} {rest : List TypeTag} {values : List MoveValue}
      (hlength : values.length ≤ 1) (h : ∀ x ∈ values, HasType inner x) :
      HasType (optionOf inner rest) (.vector values)

lemma readNat_append {n v : ℕ} (h : v < 256 ^ n) (rest : List UInt8) :
    readNat n (leBytes n v ++ rest) = some (v, rest) := by
  rw [readNat, Bcs.readFixed_append (length_leBytes n v), Option.map_some,
    ofLe_leBytes_of_lt h]

lemma readAddress_append (address : AccountAddress) (rest : List UInt8) :
    readAddress (address.val ++ rest) = some (address, rest) := by
  rw [readAddress, Bcs.readFixed_append address.property, Option.bind_some,
    dif_pos address.property]

lemma forall₂_of_serializeAll {values : List MoveValue} {texts : List (List UInt8)}
    (h : MoveValue.serializeAll values = some texts) :
    List.Forall₂ (fun value text => value.serialize = some text) values texts := by
  induction values generalizing texts with
  | nil =>
    cases h
    exact .nil
  | cons first rest ih =>
    rw [MoveValue.serializeAll] at h
    obtain ⟨bytes, hbytes, h⟩ := Option.bind_eq_some_iff.1 h
    obtain ⟨others, hothers, h⟩ := Option.bind_eq_some_iff.1 h
    cases h
    exact .cons hbytes (ih hothers)

/-- The items of a vector are read back when each of them is. -/
lemma readSeq_of_serialize {item : Bcs.Reader MoveValue} {values : List MoveValue}
    (h : ∀ x ∈ values, ∀ {bytes}, x.serialize = some bytes →
      ∀ rest, item (bytes ++ rest) = some (x, rest)) {bytes : List UInt8}
    (hbytes : (MoveValue.vector values).serialize = some bytes) (rest : List UInt8) :
    Bcs.readSeq item (bytes ++ rest) = some (values, rest) := by
  rw [MoveValue.serialize] at hbytes
  obtain ⟨texts, htexts, hwrite⟩ := Option.bind_eq_some_iff.1 hbytes
  refine Bcs.readSeq_writeSeq ?_ hwrite rest
  have hall := (List.forall₂_and_left _ _).2 ⟨h, forall₂_of_serializeAll htexts⟩
  exact hall.imp fun x text hx => hx.1 hx.2

/-- A number in a bit vector, read back. -/
lemma map_readNat {w : ℕ} (make : BitVec w → MoveValue) (n : ℕ) (value : BitVec w) (h : w = 8 * n)
    {bytes : List UInt8} (hbytes : some (leBytes n value.toNat) = some bytes) (rest : List UInt8) :
    (readNat n (bytes ++ rest)).map (fun read => (make (.ofNat w read.1), read.2)) =
      some (make value, rest) := by
  have hlt : value.toNat < 256 ^ n := by
    have hpow : 2 ^ w = 256 ^ n := by
      rw [h, pow_mul]
      rfl
    exact hpow ▸ value.isLt
  rw [← Option.some.inj hbytes, readNat_append hlt, Option.map_some, BitVec.ofNat_toNat,
    BitVec.setWidth_eq]

/-- Bytes of a fixed length, read back. -/
lemma map_readAddress (make : AccountAddress → MoveValue) (value : AccountAddress)
    {bytes : List UInt8} (hbytes : some value.val = some bytes) (rest : List UInt8) :
    (readAddress (bytes ++ rest)).map (fun read => (make read.1, read.2)) = some (make value, rest) := by
  rw [← Option.some.inj hbytes, readAddress_append, Option.map_some]

/-- **A value is read back from its bytes**, with nothing left over. -/
theorem decodeValue_serialize {t : TypeTag} {value : MoveValue} (h : HasType t value) :
    ∀ {bytes}, value.serialize = some bytes → ∀ rest, decodeValue t (bytes ++ rest) = some (value, rest) := by
  induction h with
  | bool value =>
    intro bytes hbytes rest
    rw [MoveValue.serialize] at hbytes
    rw [decodeValue, ← Option.some.inj hbytes, Bcs.readBool_writeBool, Option.map_some]
  | u8 value =>
    intro bytes hbytes rest
    rw [MoveValue.serialize] at hbytes
    rw [decodeValue, map_readNat .u8 1 value rfl hbytes]
  | u16 value =>
    intro bytes hbytes rest
    rw [MoveValue.serialize] at hbytes
    rw [decodeValue, map_readNat .u16 2 value rfl hbytes]
  | u32 value =>
    intro bytes hbytes rest
    rw [MoveValue.serialize] at hbytes
    rw [decodeValue, map_readNat .u32 4 value rfl hbytes]
  | u64 value =>
    intro bytes hbytes rest
    rw [MoveValue.serialize] at hbytes
    rw [decodeValue, map_readNat .u64 8 value rfl hbytes]
  | u128 value =>
    intro bytes hbytes rest
    rw [MoveValue.serialize] at hbytes
    rw [decodeValue, map_readNat .u128 16 value rfl hbytes]
  | u256 value =>
    intro bytes hbytes rest
    rw [MoveValue.serialize] at hbytes
    rw [decodeValue, map_readAddress .u256 value hbytes]
  | address value =>
    intro bytes hbytes rest
    rw [MoveValue.serialize] at hbytes
    rw [decodeValue, map_readAddress .address value hbytes]
  | signer value =>
    intro bytes hbytes rest
    rw [MoveValue.serialize] at hbytes
    rw [decodeValue, map_readAddress .signer value hbytes]
  | vector h ih =>
    intro bytes hbytes rest
    rw [decodeValue, readSeq_of_serialize ih hbytes, Option.map_some]
  | option hlength h ih =>
    intro bytes hbytes rest
    rw [optionOf, decodeValue, if_pos (by rfl), readSeq_of_serialize ih hbytes, Option.bind_some,
      if_pos hlength]

/-! ## What JSON denotes -/

/-- A decimal numeral: digits, behind a plus sign or not, with underscores behind the first. -/
def Numeral (text : List Char) (n : ℕ) : Prop :=
  ∃ c rest, Decimal.stripPlus text = c :: rest ∧ c.isDigit = true ∧
    (∀ d ∈ rest, d.isDigit = true ∨ d = '_') ∧
    n = Decimal.value ((c :: rest).filter (· ≠ '_'))

/-- The text of an integer, up to white space around it: hex behind the mark, or a decimal numeral. -/
def IntegerText (text : List Char) (n : ℕ) : Prop :=
  (hasHexMark (trim text) = true ∧ ∃ bytes, decodeHex (String.ofList (trim text)) = some bytes ∧
    n = ofBe bytes) ∨
  hasHexMark (trim text) = false ∧ Numeral (trim text) n

/-- An integer: a JSON number that is one, or the text of one. -/
def DenotesInteger (value : Json) (n : ℕ) : Prop :=
  (∃ number, value = .num number ∧ number.int = some (n : ℤ)) ∨
    ∃ text, value = .str text ∧ IntegerText text.toList n

/-- A boolean: one of JSON, its name in any case, or an unsigned integer, of which zero is false. -/
def DenotesBool (value : Json) (b : Bool) : Prop :=
  value = .bool b ∨
    (∃ text, value = .str text ∧
      toLowercase (trim text.toList) = (if b then "true".toList else "false".toList)) ∨
    ∃ number n, value = .num number ∧ number.asU64 = some n ∧ b = (n != 0)

/-- An address: hex text of at most 32 bytes, with or without the mark, with zeros in front. -/
def DenotesAddress (value : Json) (address : AccountAddress) : Prop :=
  ∃ text bytes, value = .str text ∧ decodeHex text = some bytes ∧ bytes.length ≤ 32 ∧
    address.val = List.replicate (32 - bytes.length) 0 ++ bytes

/-- **What JSON denotes of a type.** The elements of a vector are denoted one by one; the text of a vector
of bytes is hex; `null` is no option and everything else an option of what it denotes. -/
inductive Denotes : TypeTag → Json → MoveValue → Prop
  | bool {value : Json} {b : Bool} (h : DenotesBool value b) : Denotes .bool value (.bool b)
  | u8 {value : Json} {n : ℕ} (h : DenotesInteger value n) (hn : n < 2 ^ 8) :
      Denotes .u8 value (.u8 (.ofNat 8 n))
  | u16 {value : Json} {n : ℕ} (h : DenotesInteger value n) (hn : n < 2 ^ 16) :
      Denotes .u16 value (.u16 (.ofNat 16 n))
  | u32 {value : Json} {n : ℕ} (h : DenotesInteger value n) (hn : n < 2 ^ 32) :
      Denotes .u32 value (.u32 (.ofNat 32 n))
  | u64 {value : Json} {n : ℕ} (h : DenotesInteger value n) (hn : n < 2 ^ 64) :
      Denotes .u64 value (.u64 (.ofNat 64 n))
  | u128 {value : Json} {n : ℕ} (h : DenotesInteger value n) (hn : n < 2 ^ 128) :
      Denotes .u128 value (.u128 (.ofNat 128 n))
  | u256 {value : Json} {n : ℕ} (h : DenotesInteger value n) (hn : n < 256 ^ 32) :
      Denotes .u256 value (.u256 ⟨leBytes 32 n, length_leBytes 32 n⟩)
  | address {value : Json} {a : AccountAddress} (h : DenotesAddress value a) :
      Denotes .address value (.address a)
  | signer {value : Json} {a : AccountAddress} (h : DenotesAddress value a) :
      Denotes .signer value (.signer a)
  | vector {inner : TypeTag} {items : List Json} {values : List MoveValue}
      (hlength : items.length = values.length)
      (h : ∀ pair ∈ items.zip values, Denotes inner pair.1 pair.2) :
      Denotes (.vector inner) (.arr items) (.vector values)
  | bytes {text : String} {bytes : List UInt8} (h : decodeHex text = some bytes) :
      Denotes (.vector .u8) (.str text) (.vector (bytes.map fun byte => .u8 byte.toBitVec))
  | none {inner : TypeTag} {rest : List TypeTag} : Denotes (optionOf inner rest) .null (.vector [])
  | some {inner : TypeTag} {rest : List TypeTag} {value : Json} {x : MoveValue} (hne : value ≠ .null)
      (h : Denotes inner value x) : Denotes (optionOf inner rest) value (.vector [x])

/-- **Where the source reads a number as something else**: at an address its decimal text is read as hex,
and at a boolean a number that is no unsigned integer as false. -/
inductive Misread : TypeTag → Json → Prop
  | bool {number : JsonNumber} (h : number.asU64 = none) : Misread .bool (.num number)
  | address {number : JsonNumber} : Misread .address (.num number)
  | signer {number : JsonNumber} : Misread .signer (.num number)
  | vector {inner : TypeTag} {items : List Json} {item : Json} (hitem : item ∈ items)
      (h : Misread inner item) : Misread (.vector inner) (.arr items)
  | option {inner : TypeTag} {rest : List TypeTag} {value : Json} (h : Misread inner value) :
      Misread (optionOf inner rest) value

/-- A value in a JSON value, itself or an element of its arrays. -/
inductive Inside : Json → Json → Prop
  | refl (value : Json) : Inside value value
  | item {value item : Json} {items : List Json} (hitem : item ∈ items) (h : Inside value item) :
      Inside value (.arr items)

/-- How `serde_json` writes the numbers that are no integers of 64 bits: with a point or an exponent. -/
def WrittenFloat (number : JsonNumber) : Prop :=
  ∀ text, number = .float text → ('.' ∈ text.toList ∨ 'e' ∈ text.toList) ∧ 'x' ∉ text.toList

/-- That all numbers in a value are written so. -/
def WrittenNumbers (value : Json) : Prop := ∀ number, Inside (.num number) value → WrittenFloat number

/-- What is documented of `BigUint::parse_bytes` with ten digits. -/
def ArgumentLib.Lawful (lib : ArgumentLib) : Prop :=
  ∀ text n, lib.parseBytes text = some n ↔ Numeral text n

/-! ## Reading integers -/

variable {lib : ArgumentLib}

lemma decodeHexBytes_eq_ok_iff {hexLib : HexLib} {text : List Char} {bytes : List UInt8} :
    decodeHexBytes hexLib text = .ok bytes ↔ decodeHex (String.ofList text) = some bytes :=
  okOr_eq_ok_iff

/-- White space around a hex text makes no difference. -/
lemma decodeHex_trim (text : List Char) :
    decodeHex (String.ofList (trim text)) = decodeHex (String.ofList text) := by
  rw [decodeHex, decodeHex, String.toList_ofList, String.toList_ofList, trim_trim]

/-- **The text of an integer is read as that integer**, and no other text is read. -/
theorem parseBigUintFromStr_eq_ok_iff (hlib : lib.Lawful) (label : String) {text : List Char} {n : ℕ} :
    parseBigUintFromStr lib text label = .ok n ↔ IntegerText text n := by
  unfold parseBigUintFromStr IntegerText
  by_cases hmark : hasHexMark (trim text) = true
  · simp only [hmark, if_true, bind_eq_ok_iff, decodeHexBytes_eq_ok_iff, Except.ok.injEq, true_and,
      Bool.true_eq_false, false_and, or_false]
    exact exists_congr fun bytes => and_congr_right fun _ => eq_comm
  · have hmark' : hasHexMark (trim text) = false := Bool.eq_false_iff.2 hmark
    simp only [hmark', Bool.false_eq_true, if_false, okOr_eq_ok_iff, hlib _ _, false_and, false_or,
      true_and]

lemma stripPlus_toDigits (m : ℕ) :
    Decimal.stripPlus (Nat.toDigits 10 m) = Nat.toDigits 10 m := by
  simpa using @Decimal.stripPlus_digits [] _ (.inl rfl) (Decimal.digits_toDigits m)

/-- The decimal digits of a number are a numeral of it and of no other. -/
lemma numeral_toDigits {m n : ℕ} : Numeral (Nat.toDigits 10 m) n ↔ n = m := by
  have hdigits := Decimal.digits_toDigits m
  have hstrip := stripPlus_toDigits m
  have hfilter : (Nat.toDigits 10 m).filter (· ≠ '_') = Nat.toDigits 10 m := by
    refine List.filter_eq_self.2 fun c hc => decide_eq_true ?_
    rintro rfl
    exact absurd (hdigits _ hc) (by decide)
  obtain ⟨c, rest, hcons⟩ := List.exists_cons_of_ne_nil
    (Nat.toDigits_ne_nil : Nat.toDigits 10 m ≠ [])
  constructor
  · rintro ⟨c', rest', heq, -, -, rfl⟩
    rw [hstrip] at heq
    rw [← heq, hfilter, Decimal.value_toDigits]
  · rintro rfl
    refine ⟨c, rest, by rw [hstrip, hcons], hdigits c (hcons ▸ List.mem_cons_self), ?_, ?_⟩
    · exact fun d hd => .inl (hdigits d (hcons ▸ List.mem_cons_of_mem c hd))
    · rw [← hcons, hfilter, Decimal.value_toDigits]

/-- A hex mark has its letter. -/
lemma mem_of_hasHexMark {text : List Char} (h : hasHexMark text = true) : 'x' ∈ text := by
  have htake : text.take 2 = ['0', 'x'] := of_decide_eq_true h
  exact List.mem_of_mem_take (by rw [htake]; simp : 'x' ∈ text.take 2)

/-- A text of digits is not trimmed. -/
lemma trim_digits {digits : List Char} (h : Decimal.Digits digits) : trim digits = digits := by
  refine Serde.trim_of_forall fun c hc => isWhitespace_of_identifier (.inl ?_)
  rw [Char.isAlphanum, h c hc, Bool.or_true]

/-- A text of digits is no hex text. -/
lemma hasHexMark_digits {digits : List Char} (h : Decimal.Digits digits) :
    hasHexMark digits = false :=
  Bool.eq_false_iff.2 fun hmark => absurd (h _ (mem_of_hasHexMark hmark)) (by decide)

lemma integerText_digits {digits : List Char} (h : Decimal.Digits digits) {n : ℕ} :
    IntegerText digits n ↔ Numeral digits n := by
  simp only [IntegerText, trim_digits h, hasHexMark_digits h, Bool.false_eq_true, false_and, false_or,
    true_and]

lemma toList_natText (m : ℕ) : (toString m).toList = Nat.toDigits 10 m := by
  show (Nat.repr m).toList = _
  rw [Nat.toList_repr]

lemma integerText_natText {m n : ℕ} : IntegerText (toString m).toList n ↔ n = m := by
  rw [toList_natText, integerText_digits (Decimal.digits_toDigits m), numeral_toDigits]

/-- A character of a numeral. -/
lemma Numeral.mem {text : List Char} {n : ℕ} (h : Numeral text n) {c : Char} (hc : c ∈ text) :
    c.isDigit = true ∨ c = '_' ∨ c = '+' := by
  obtain ⟨first, rest, hstrip, hfirst, hrest, -⟩ := h
  obtain ⟨sign, hsign, htext⟩ := Decimal.stripPlus_cases text
  rw [htext, hstrip, List.mem_append, List.mem_cons] at hc
  rcases hc with hc | rfl | hc
  · rcases hsign with rfl | rfl
    · cases hc
    · exact .inr (.inr (List.mem_singleton.1 hc))
  · exact .inl hfirst
  · exact (hrest c hc).imp_right .inl

/-- The characters that remain of a text are characters of it. -/
lemma mem_of_mem_trim {text : List Char} {c : Char} (h : c ∈ trim text) : c ∈ text := by
  rw [trim, List.mem_reverse] at h
  have hdrop := (List.dropWhile_sublist isWhitespace).mem h
  rw [List.mem_reverse] at hdrop
  exact (List.dropWhile_sublist isWhitespace).mem hdrop

/-- A text with a character of no numeral and without a hex mark is no integer. -/
theorem not_integerText {text : List Char} {c : Char} (hc : c ∈ text) (hspace : isWhitespace c = false)
    (hnone : ¬ (c.isDigit = true ∨ c = '_' ∨ c = '+')) (hx : 'x' ∉ text) (n : ℕ) :
    ¬ IntegerText text n := by
  rintro (⟨hmark, -⟩ | ⟨-, hnumeral⟩)
  · exact hx (mem_of_mem_trim (mem_of_hasHexMark hmark))
  · exact hnone (hnumeral.mem (Signer.mem_trim hc hspace))

/-- **A JSON number is read as the integer that it is**, and as none when it is none. -/
theorem integerText_number {number : JsonNumber} (hwritten : WrittenFloat number) {n : ℕ} :
    IntegerText number.text.toList n ↔ number.int = some (n : ℤ) := by
  have hnat (m : ℕ) : IntegerText (toString m).toList n ↔ some (m : ℤ) = some (n : ℤ) := by
    rw [integerText_natText, Option.some.injEq, Nat.cast_inj, eq_comm]
  cases number with
  | posInt m => exact hnat m.toNat
  | negInt m =>
    show IntegerText (toString m.toInt).toList n ↔ some m.toInt = some (n : ℤ)
    cases m.toInt with
    | ofNat k => exact hnat k
    | negSucc k =>
      have htext : (toString (Int.negSucc k)).toList = '-' :: Nat.toDigits 10 (k + 1) := by
        show ("-" ++ Nat.repr (k + 1)).toList = _
        rw [String.toList_append, Nat.toList_repr]
        rfl
      have hx : 'x' ∉ '-' :: Nat.toDigits 10 (k + 1) := by
        rintro (_ | ⟨_, hx⟩)
        exact absurd (Decimal.digits_toDigits _ _ hx) (by decide)
      rw [htext]
      refine iff_of_false (not_integerText List.mem_cons_self (by decide) (by decide) hx n) fun h => ?_
      exact absurd (Option.some.inj h) (by omega)
  | float text =>
    obtain ⟨hpoint, hx⟩ := hwritten text rfl
    refine iff_of_false ?_ fun h => nomatch h
    rcases hpoint with hpoint | hexponent
    · exact not_integerText hpoint (by decide) (by decide) hx n
    · exact not_integerText hexponent (by decide) (by decide) hx n

/-- **Numeric values are read as the integers that they denote.** -/
theorem numericString_iff {value : Json} (hwritten : WrittenNumbers value) (label : String) {n : ℕ} :
    (∃ text, parseNumericString value label = .ok text ∧ IntegerText text n) ↔
      DenotesInteger value n := by
  unfold DenotesInteger
  cases value with
  | num number =>
    have hnumber := integerText_number (n := n) (hwritten number (.refl _))
    simp [parseNumericString, hnumber]
  | str text => simp [parseNumericString]
  | _ => simp [parseNumericString]

/-- A value of at most 128 bits is what is denoted, if that fits. -/
lemma parseUnsigned_eq_ok_iff (hlib : lib.Lawful) {value : Json} (hwritten : WrittenNumbers value)
    {bits : ℕ} (hbits : bits ≤ 128) {label : String} {x : BitVec bits} :
    parseUnsigned lib bits label value = .ok x ↔
      ∃ n, DenotesInteger value n ∧ n < 2 ^ bits ∧ x = .ofNat bits n := by
  have hpow : 2 ^ bits ≤ 2 ^ 128 := Nat.pow_le_pow_right (by decide) hbits
  simp only [parseUnsigned, bind_eq_ok_iff, parseBigUintFromStr_eq_ok_iff hlib,
    ← numericString_iff hwritten label]
  constructor
  · rintro ⟨text, htext, n, hn, h⟩
    split at h
    case isTrue hlt =>
      cases h
      exact ⟨n, ⟨text, htext, hn⟩, hlt.2, rfl⟩
    case isFalse => cases h
  · rintro ⟨n, ⟨text, htext, hn⟩, hlt, rfl⟩
    exact ⟨text, htext, n, hn, if_pos ⟨hlt.trans_le hpow, hlt⟩⟩

/-- A value of 256 bits is what is denoted, if that fits. -/
lemma parseU256_eq_ok_iff (hlib : lib.Lawful) {value : Json} (hwritten : WrittenNumbers value)
    {x : FixedBytes 32} :
    parseU256 lib value = .ok x ↔
      ∃ n, DenotesInteger value n ∧ n < 256 ^ 32 ∧ x = ⟨leBytes 32 n, length_leBytes 32 n⟩ := by
  simp only [parseU256, bind_eq_ok_iff, parseBigUintFromStr_eq_ok_iff hlib,
    ← numericString_iff hwritten "u256"]
  constructor
  · rintro ⟨text, htext, n, hn, h⟩
    split at h
    case isTrue hlt => exact ⟨n, ⟨text, htext, hn⟩, hlt, (Except.ok.inj h).symm⟩
    case isFalse => cases h
  · rintro ⟨n, ⟨text, htext, hn⟩, hlt, rfl⟩
    exact ⟨text, htext, n, hn, if_pos hlt⟩

/-- Digits behind a plus sign or not are a numeral. -/
lemma numeral_of_digits {text : List Char} (hne : Decimal.stripPlus text ≠ [])
    (hdigits : (Decimal.stripPlus text).all Char.isDigit = true) :
    Numeral text (Decimal.value (Decimal.stripPlus text)) := by
  have hdigit := List.all_eq_true.1 hdigits
  have hfilter : (Decimal.stripPlus text).filter (· ≠ '_') = Decimal.stripPlus text := by
    refine List.filter_eq_self.2 fun c hc => decide_eq_true ?_
    rintro rfl
    exact absurd (hdigit _ hc) (by decide)
  obtain ⟨c, rest, hcons⟩ := List.exists_cons_of_ne_nil hne
  refine ⟨c, rest, hcons, hdigit c (hcons ▸ List.mem_cons_self), ?_, ?_⟩
  · exact fun d hd => .inl (hdigit d (hcons ▸ List.mem_cons_of_mem c hd))
  · rw [← hcons, hfilter]

/-- **A text that is read as a byte is that integer**: hex of one byte, or digits. -/
theorem integerText_of_parseU8FromStr {text : List Char} {x : BitVec 8}
    (h : parseU8FromStr lib text = .ok x) : ∃ n, IntegerText text n ∧ n < 2 ^ 8 ∧ x = .ofNat 8 n := by
  unfold parseU8FromStr at h
  split at h
  case isTrue hmark =>
    obtain ⟨bytes, hbytes, h⟩ := bind_eq_ok_iff.1 h
    rw [decodeHexBytes_eq_ok_iff, ← decodeHex_trim] at hbytes
    split at h
    case h_1 byte =>
      cases h
      refine ⟨byte.toNat, .inl ⟨hmark, _, hbytes, by simp [ofBe]⟩, byte.toNat_lt, ?_⟩
      rw [← UInt8.toNat_toBitVec, BitVec.ofNat_toNat, BitVec.setWidth_eq]
    case h_2 => cases h
  case isFalse hmark =>
    have hparse := okOr_eq_ok_iff.1 h
    simp only [parseU8Text] at hparse
    split at hparse
    case isTrue hdigits =>
      cases hparse
      exact ⟨_, .inr ⟨Bool.eq_false_iff.2 hmark, numeral_of_digits hdigits.1 hdigits.2.1⟩,
        hdigits.2.2, rfl⟩
    case isFalse => cases hparse

/-- A byte is what is denoted. -/
lemma denotesInteger_of_parseU8 {value : Json} (hwritten : WrittenNumbers value) {x : BitVec 8}
    (h : parseU8 lib value = .ok x) : ∃ n, DenotesInteger value n ∧ n < 2 ^ 8 ∧ x = .ofNat 8 n := by
  obtain ⟨text, htext, h⟩ := bind_eq_ok_iff.1 h
  obtain ⟨n, hn, hlt, rfl⟩ := integerText_of_parseU8FromStr h
  exact ⟨n, (numericString_iff hwritten _).1 ⟨text, htext, hn⟩, hlt, rfl⟩

/-- A value denotes one integer at most. -/
lemma DenotesInteger.unique (hlib : lib.Lawful) {value : Json} (hwritten : WrittenNumbers value)
    {m n : ℕ} (hm : DenotesInteger value m) (hn : DenotesInteger value n) : m = n := by
  obtain ⟨text, htext, hm⟩ := (numericString_iff hwritten "").2 hm
  obtain ⟨text', htext', hn⟩ := (numericString_iff hwritten "").2 hn
  obtain rfl := Except.ok.inj (htext.symm.trans htext')
  rw [← parseBigUintFromStr_eq_ok_iff hlib ""] at hm hn
  exact Except.ok.inj (hm.symm.trans hn)

/-! ## Reading booleans and addresses -/

/-- **A boolean is what is denoted**, unless it is a number that is no unsigned integer. -/
theorem denotesBool_of_parseBool {value : Json} (hread : ¬ Misread .bool value) {b : Bool}
    (h : parseBool value = .ok b) : DenotesBool value b := by
  cases value with
  | bool value =>
    cases h
    exact .inl rfl
  | num number =>
    cases hnumber : number.asU64 with
    | none => exact absurd (.bool hnumber) hread
    | some n =>
      simp only [parseBool, hnumber, Except.ok.injEq] at h
      exact .inr (.inr ⟨number, n, rfl, hnumber, h.symm⟩)
  | str text =>
    simp only [parseBool] at h
    split_ifs at h with htrue hfalse
    · cases h
      exact .inr (.inl ⟨text, rfl, htrue⟩)
    · cases h
      exact .inr (.inl ⟨text, rfl, hfalse⟩)
  | _ => cases h

/-- **A text is read as the address that it denotes**, and no other text is read. -/
theorem fromHex_eq_ok_iff {hexLib : HexLib} {text : String} {a : AccountAddress} :
    AccountAddress.fromHex hexLib text.toList = .ok a ↔ DenotesAddress (.str text) a := by
  simp only [AccountAddress.fromHex, bind_eq_ok_iff, okOr_eq_ok_iff, String.ofList_toList]
  constructor
  · rintro ⟨bytes, hbytes, h⟩
    unfold AccountAddress.fromBytes at h
    split at h
    case isTrue hlength =>
      cases h
      exact ⟨text, bytes, rfl, hbytes, hlength, rfl⟩
    case isFalse => cases h
  · rintro ⟨_, bytes, heq, hbytes, hlength, ha⟩
    cases heq
    refine ⟨bytes, hbytes, ?_⟩
    rw [AccountAddress.fromBytes, dif_pos hlength]
    exact congrArg Except.ok (Subtype.ext ha.symm)

/-- An address is what is denoted, unless it is a number. -/
lemma denotesAddress_of_parseAddress {value : Json} (hread : ∀ number, value ≠ .num number)
    {a : AccountAddress} (h : parseAddress lib value = .ok a) : DenotesAddress value a := by
  cases value with
  | str text => exact fromHex_eq_ok_iff.1 h
  | num number => exact absurd rfl (hread number)
  | _ => cases h

/-! ## Reading values -/

/-- What is written of a value is written of its elements. -/
lemma WrittenNumbers.item {items : List Json} (h : WrittenNumbers (.arr items)) {item : Json}
    (hitem : item ∈ items) : WrittenNumbers item := fun number hin => h number (.item hitem hin)

/-- The struct that is an option. -/
lemma struct_eq_optionOf {address : AccountAddress} {moduleName name : List Char}
    (h : isOptionStruct address moduleName name = true) (inner : TypeTag) (rest : List TypeTag) :
    TypeTag.struct address moduleName name (inner :: rest) = optionOf inner rest := by
  obtain ⟨rfl, rfl, rfl⟩ := of_decide_eq_true h
  rfl

/-- **A value that is read is what the JSON denotes.** The induction is on how deep the type is nested:
the elements of a vector and the value of an option are read at a type that is nested less. -/
theorem denotes_of_parseMoveValue (hlib : lib.Lawful) (n : ℕ) : ∀ {t : TypeTag} {value : Json}
    {x : MoveValue}, t.nesting < n → WrittenNumbers value → ¬ Misread t value →
    parseMoveValue lib t value = .ok x → Denotes t value x := by
  induction n with
  | zero => exact fun h => absurd h (Nat.not_lt_zero _)
  | succ n ih =>
    intro t value x hnesting hwritten hread h
    cases t with
    | bool =>
      obtain ⟨b, hb, rfl⟩ := map_eq_ok_iff.1 h
      exact .bool (denotesBool_of_parseBool hread hb)
    | u8 =>
      obtain ⟨y, hy, rfl⟩ := map_eq_ok_iff.1 h
      obtain ⟨m, hm, hlt, rfl⟩ := denotesInteger_of_parseU8 hwritten hy
      exact .u8 hm hlt
    | u16 =>
      obtain ⟨y, hy, rfl⟩ := map_eq_ok_iff.1 h
      obtain ⟨m, hm, hlt, rfl⟩ := (parseUnsigned_eq_ok_iff hlib hwritten (by decide)).1 hy
      exact .u16 hm hlt
    | u32 =>
      obtain ⟨y, hy, rfl⟩ := map_eq_ok_iff.1 h
      obtain ⟨m, hm, hlt, rfl⟩ := (parseUnsigned_eq_ok_iff hlib hwritten (by decide)).1 hy
      exact .u32 hm hlt
    | u64 =>
      obtain ⟨y, hy, rfl⟩ := map_eq_ok_iff.1 h
      obtain ⟨m, hm, hlt, rfl⟩ := (parseUnsigned_eq_ok_iff hlib hwritten (by decide)).1 hy
      exact .u64 hm hlt
    | u128 =>
      obtain ⟨y, hy, rfl⟩ := map_eq_ok_iff.1 h
      obtain ⟨m, hm, hlt, rfl⟩ := (parseUnsigned_eq_ok_iff hlib hwritten (by decide)).1 hy
      exact .u128 hm hlt
    | u256 =>
      obtain ⟨y, hy, rfl⟩ := map_eq_ok_iff.1 h
      obtain ⟨m, hm, hlt, rfl⟩ := (parseU256_eq_ok_iff hlib hwritten).1 hy
      exact .u256 hm hlt
    | address =>
      obtain ⟨y, hy, rfl⟩ := map_eq_ok_iff.1 h
      refine .address (denotesAddress_of_parseAddress ?_ hy)
      rintro number rfl
      exact hread .address
    | signer =>
      obtain ⟨y, hy, rfl⟩ := map_eq_ok_iff.1 h
      refine .signer (denotesAddress_of_parseAddress ?_ hy)
      rintro number rfl
      exact hread .signer
    | vector inner =>
      have hinner : inner.nesting < n := Nat.lt_of_succ_lt_succ hnesting
      cases value with
      | arr items =>
        obtain ⟨values, hvalues, rfl⟩ := map_eq_ok_iff.1 h
        obtain ⟨hlength, hzip⟩ := List.forall₂_iff_zip.1 (tryMap_eq_ok_iff.1 hvalues)
        refine .vector hlength fun pair hpair => ?_
        have hitem := (List.of_mem_zip hpair).1
        exact ih hinner (hwritten.item hitem) (fun hmis => hread (.vector hitem hmis)) (hzip hpair)
      | str text =>
        cases inner with
        | u8 =>
          obtain ⟨bytes, hbytes, h⟩ := bind_eq_ok_iff.1 h
          cases h
          rw [decodeHexBytes_eq_ok_iff, String.ofList_toList] at hbytes
          exact .bytes hbytes
        | _ => cases h
      | _ => cases h
    | struct address moduleName name typeArgs =>
      rw [parseMoveValue.eq_def] at h
      simp only at h
      split at h
      case isFalse => cases h
      case isTrue hoption =>
        cases typeArgs with
        | nil => cases h
        | cons inner rest =>
          have hinner : inner.nesting < n :=
            nestingArgs_le_iff.1 (Nat.le_of_lt_succ hnesting) inner List.mem_cons_self
          rw [struct_eq_optionOf hoption] at hread ⊢
          by_cases hnull : value = .null
          · subst hnull
            cases h
            exact .none
          · have hsome : (parseMoveValue lib inner value).map (fun y => .vector [y]) = .ok x := by
              cases value with
              | null => exact absurd rfl hnull
              | _ => exact h
            obtain ⟨y, hy, rfl⟩ := map_eq_ok_iff.1 hsome
            exact .some hnull (ih hinner hwritten (fun hmis => hread (.option hmis)) hy)

/-- What is denoted is a value of the type. -/
lemma Denotes.hasType {t : TypeTag} {value : Json} {x : MoveValue} (h : Denotes t value x) :
    HasType t x := by
  induction h with
  | vector hlength h ih =>
    refine .vector fun y hy => ?_
    obtain ⟨item, -, hitem⟩ :=
      exists_mem_of_forall₂ (List.forall₂_iff_zip.2 ⟨hlength, fun hpair => ih _ hpair⟩) hy
    exact hitem
  | bytes h =>
    refine .vector fun y hy => ?_
    obtain ⟨byte, -, rfl⟩ := List.mem_map.1 hy
    exact .u8 _
  | none => exact .option (Nat.zero_le 1) fun _ h => nomatch h
  | some hne h ih => exact .option le_rfl (List.forall_mem_singleton.2 ih)
  | _ => constructor

/-! ## One value at most -/

/-- A value denotes one boolean at most. -/
lemma DenotesBool.unique {value : Json} {b c : Bool} (hb : DenotesBool value b)
    (hc : DenotesBool value c) : b = c := by
  rcases hb with rfl | ⟨text, rfl, hb⟩ | ⟨number, n, rfl, hn, rfl⟩
  · rcases hc with hc | ⟨_, hc, -⟩ | ⟨_, _, hc, -⟩
    · cases hc
      rfl
    · cases hc
    · cases hc
  · rcases hc with hc | ⟨_, htext, hc⟩ | ⟨_, _, hc, -⟩
    · cases hc
    · cases htext
      revert hb
      rw [hc]
      cases b <;> cases c <;> decide
    · cases hc
  · rcases hc with hc | ⟨_, hc, -⟩ | ⟨_, m, heq, hm, rfl⟩
    · cases hc
    · cases hc
    · cases heq
      rw [Option.some.inj (hn.symm.trans hm)]

/-- A value denotes one address at most. -/
lemma DenotesAddress.unique {value : Json} {a b : AccountAddress} (ha : DenotesAddress value a)
    (hb : DenotesAddress value b) : a = b := by
  obtain ⟨text, bytes, rfl, hbytes, -, ha⟩ := ha
  obtain ⟨_, bytes', heq, hbytes', -, hb⟩ := hb
  cases heq
  cases hbytes.symm.trans hbytes'
  exact Subtype.ext (ha.trans hb.symm)

/-- **A value denotes one value of a type at most.** -/
theorem Denotes.unique (hlib : lib.Lawful) {t : TypeTag} {value : Json} (hwritten : WrittenNumbers value)
    {x y : MoveValue} (hx : Denotes t value x) (hy : Denotes t value y) : x = y := by
  induction hx generalizing y with
  | bool h =>
    cases hy with
    | bool h' => rw [h.unique h']
  | u8 h =>
    cases hy with
    | u8 h' => rw [h.unique hlib hwritten h']
  | u16 h =>
    cases hy with
    | u16 h' => rw [h.unique hlib hwritten h']
  | u32 h =>
    cases hy with
    | u32 h' => rw [h.unique hlib hwritten h']
  | u64 h =>
    cases hy with
    | u64 h' => rw [h.unique hlib hwritten h']
  | u128 h =>
    cases hy with
    | u128 h' => rw [h.unique hlib hwritten h']
  | u256 h =>
    cases hy with
    | u256 h' =>
      obtain rfl := h.unique hlib hwritten h'
      rfl
  | address h =>
    cases hy with
    | address h' => rw [h.unique h']
  | signer h =>
    cases hy with
    | signer h' => rw [h.unique h']
  | @vector inner items values hlength h ih =>
    cases hy with
    | @vector _ _ values' hlength' h' =>
      refine congrArg MoveValue.vector (List.ext_getElem (hlength.symm.trans hlength') ?_)
      intro i hi hi'
      have hitem : i < items.length := hlength ▸ hi
      exact ih _ (getElem_mem_zip hitem hi) (hwritten.item (List.getElem_mem hitem))
        (h' _ (getElem_mem_zip hitem hi'))
  | bytes h =>
    cases hy with
    | bytes h' => rw [Option.some.inj (h.symm.trans h')]
  | none =>
    cases hy with
    | none => rfl
    | some hne => exact absurd rfl hne
  | some hne h ih =>
    cases hy with
    | none => exact absurd rfl hne
    | some _ h' => rw [ih hwritten h']

/-! ## Inferred types -/

/-- **Nothing is misread at the type that is inferred**: an address is inferred of texts only, and a
boolean of a boolean. -/
theorem not_misread_of_inferTypeTag {value : Json} {t : TypeTag} (h : inferTypeTag lib value = .ok t) :
    ¬ Misread t value := by
  intro hmis
  cases value with
  | bool b | num number =>
    cases h
    cases hmis
  | str text =>
    simp only [inferTypeTag, Except.ok.injEq] at h
    split_ifs at h <;> · cases h; cases hmis
  | arr items =>
    simp only [inferTypeTag, inferVectorType, Except.ok.injEq] at h
    split_ifs at h with hempty hu8 haddress
    · cases h
      cases hmis with
      | vector hitem hmis => cases hmis
    · cases h
      cases hmis with
      | vector hitem hmis => cases hmis
    · cases h
      cases hmis with
      | vector hitem hmis =>
        have hmark := List.all_eq_true.1 haddress _ hitem
        cases hmis
        cases hmark
    · cases h
      cases hmis with
      | vector hitem hmis => cases hmis
  | null => cases h
  | obj entries => cases h

/-- What is taken for a byte is read as one. -/
lemma exists_parseU8_of_isU8Value {value : Json} (h : isU8Value lib value = true) :
    ∃ y, parseU8 lib value = .ok y := by
  cases value with
  | num number =>
    cases number with
    | posInt m =>
      have hlt : m.toNat < 256 := Nat.lt_succ_of_le (of_decide_eq_true h)
      have hdigits := Decimal.digits_toDigits m.toNat
      have hparse : parseU8Text (Nat.toDigits 10 m.toNat) = some (BitVec.ofNat 8 m.toNat) := by
        simp only [parseU8Text, stripPlus_toDigits, Decimal.value_toDigits]
        exact if_pos ⟨Nat.toDigits_ne_nil, List.all_eq_true.2 hdigits, hlt⟩
      refine ⟨BitVec.ofNat 8 m.toNat, ?_⟩
      have htext : parseNumericString (.num (.posInt m)) "u8" = .ok (Nat.toDigits 10 m.toNat) :=
        congrArg Except.ok (toList_natText m.toNat)
      rw [parseU8, htext, ok_bind, parseU8FromStr, trim_digits hdigits, hasHexMark_digits hdigits,
        if_neg Bool.false_ne_true, hparse, okOr_some]
    | negInt m => cases h
    | float text => cases h
  | str text =>
    show ∃ y, parseU8FromStr lib text.toList = .ok y
    cases hparse : parseU8FromStr lib text.toList with
    | error e =>
      simp only [isU8Value, hparse] at h
      cases h
    | ok y => exact ⟨y, rfl⟩
  | _ => cases h

/-- What a type takes: whatever is denoted of it is read. -/
def Takes (lib : ArgumentLib) (t : TypeTag) (value : Json) : Prop :=
  ∀ x, Denotes t value x → parseMoveValue lib t value = .ok x

lemma takes_u8 (hlib : lib.Lawful) {value : Json} (hwritten : WrittenNumbers value)
    (h : isU8Value lib value = true) : Takes lib .u8 value := by
  intro x hx
  obtain ⟨y, hy⟩ := exists_parseU8_of_isU8Value h
  have hparse : parseMoveValue lib .u8 value = .ok (.u8 y) := map_eq_ok_iff.2 ⟨y, hy, rfl⟩
  obtain ⟨n, hn, hlt, rfl⟩ := denotesInteger_of_parseU8 hwritten hy
  rw [hparse, hx.unique hlib hwritten (.u8 hn hlt)]

lemma takes_u64 (hlib : lib.Lawful) {value : Json} (hwritten : WrittenNumbers value) :
    Takes lib .u64 value := by
  intro x hx
  cases hx with
  | @u64 _ n hn hlt =>
    refine map_eq_ok_iff.2 ⟨_, ?_, rfl⟩
    exact (parseUnsigned_eq_ok_iff hlib hwritten (by decide)).2 ⟨n, hn, hlt, rfl⟩

lemma takes_address {value : Json} : Takes lib .address value := by
  intro x hx
  cases hx with
  | address ha =>
    obtain ⟨text, bytes, rfl, h⟩ := ha
    exact map_eq_ok_iff.2 ⟨_, fromHex_eq_ok_iff.2 ⟨text, bytes, rfl, h⟩, rfl⟩

/-- A vector takes an array when its type takes the elements. -/
lemma takes_vector {inner : TypeTag} {items : List Json} (h : ∀ item ∈ items, Takes lib inner item) :
    Takes lib (.vector inner) (.arr items) := by
  intro x hx
  cases hx with
  | vector hlength hall =>
    refine map_eq_ok_iff.2 ⟨_, tryMap_eq_ok_iff.2 ?_, rfl⟩
    refine List.forall₂_iff_zip.2 ⟨hlength, fun hpair => ?_⟩
    exact h _ (List.of_mem_zip hpair).1 _ (hall _ hpair)

/-- **The type that is inferred takes the value.** -/
theorem takes_of_inferTypeTag (hlib : lib.Lawful) {value : Json} (hwritten : WrittenNumbers value)
    {t : TypeTag} (h : inferTypeTag lib value = .ok t) : Takes lib t value := by
  cases value with
  | bool b =>
    cases h
    intro x hx
    cases hx with
    | bool hb =>
      rw [hb.unique (.inl rfl)]
      rfl
  | num number =>
    cases h
    exact takes_u64 hlib hwritten
  | str text =>
    simp only [inferTypeTag, Except.ok.injEq] at h
    split_ifs at h
    · cases h
      exact takes_address
    · cases h
      exact takes_u64 hlib hwritten
  | arr items =>
    simp only [inferTypeTag, inferVectorType, Except.ok.injEq] at h
    split_ifs at h with hempty hu8 haddress
    · cases h
      rw [List.isEmpty_iff.1 hempty]
      exact takes_vector fun item hitem => nomatch hitem
    · cases h
      refine takes_vector fun item hitem => ?_
      exact takes_u8 hlib (hwritten.item hitem) (List.all_eq_true.1 hu8 item hitem)
    · cases h
      exact takes_vector fun item _ => takes_address
    · cases h
      exact takes_vector fun item hitem => takes_u64 hlib (hwritten.item hitem)
  | null => cases h
  | obj entries => cases h

/-! ## Encoding arguments -/

/-- **The bytes of an argument are those of what it denotes.** -/
theorem encodeArgument_sound (hlib : lib.Lawful) {t : TypeTag} {value : Json} {bytes : List UInt8}
    (hwritten : WrittenNumbers value) (hread : ¬ Misread t value)
    (h : encodeArgument lib value t = .ok bytes) :
    ∃ x, (∀ y, Denotes t value y ↔ y = x) ∧ decodeValue t bytes = some (x, []) := by
  obtain ⟨x, hx, h⟩ := bind_eq_ok_iff.1 h
  have hdenotes := denotes_of_parseMoveValue hlib _ (Nat.lt_succ_self _) hwritten hread hx
  refine ⟨x, fun y => ⟨fun hy => hy.unique hlib hwritten hdenotes, fun hy => hy ▸ hdenotes⟩, ?_⟩
  simpa using decodeValue_serialize hdenotes.hasType (okOr_eq_ok_iff.1 h) []

/-- The arguments of an entry function without an ABI have the types that are inferred. -/
theorem toEntryFunction_args {payload : EntryFunctionPayload} {entryFunction : EntryFunction}
    (h : payload.toEntryFunction lib none = .ok entryFunction) :
    List.Forall₂ (fun value bytes => ∃ t, inferTypeTag lib value = .ok t ∧
      encodeArgument lib value t = .ok bytes) payload.arguments entryFunction.args := by
  rw [EntryFunctionPayload.toEntryFunction, guard_eq_ok_iff] at h
  obtain ⟨-, h⟩ := h
  obtain ⟨_, -, h⟩ := bind_eq_ok_iff.1 h
  obtain ⟨_, -, h⟩ := bind_eq_ok_iff.1 h
  obtain ⟨tags, htags, h⟩ := bind_eq_ok_iff.1 h
  obtain ⟨args, hargs, h⟩ := bind_eq_ok_iff.1 h
  cases h
  exact forall₂_of_tryMap_zip htags hargs

/-- **Arguments mean what the JSON says**, except for the numbers that are misread: the bytes of an
argument are read back as the one value that its JSON denotes of the type, JSON that denotes none is
rejected, no number is misread at the type that is inferred, and what JSON denotes of that type is encoded
as it is; so the arguments of an entry function without an ABI are what their JSON denotes. -/
theorem encodeArgument_spec (lib : ArgumentLib) (hlib : lib.Lawful) :
    (∀ t value bytes, WrittenNumbers value → ¬ Misread t value → encodeArgument lib value t = .ok bytes →
      ∃ x, (∀ y, Denotes t value y ↔ y = x) ∧ decodeValue t bytes = some (x, [])) ∧
    (∀ t value, WrittenNumbers value → ¬ Misread t value → (∀ x, ¬ Denotes t value x) →
      ∃ e, encodeArgument lib value t = .error e) ∧
    (∀ t value, inferTypeTag lib value = .ok t → ¬ Misread t value) ∧
    (∀ t value x bytes, WrittenNumbers value → inferTypeTag lib value = .ok t → Denotes t value x →
      x.serialize = some bytes → encodeArgument lib value t = .ok bytes) ∧
    ∀ (payload : EntryFunctionPayload) (entryFunction : EntryFunction),
      (∀ value ∈ payload.arguments, WrittenNumbers value) →
      payload.toEntryFunction lib none = .ok entryFunction →
      List.Forall₂ (fun value bytes => ∃ t x, inferTypeTag lib value = .ok t ∧
        (∀ y, Denotes t value y ↔ y = x) ∧ decodeValue t bytes = some (x, []))
        payload.arguments entryFunction.args := by
  refine ⟨fun t value bytes => encodeArgument_sound hlib, ?_, fun t value => not_misread_of_inferTypeTag,
    ?_, ?_⟩
  · intro t value hwritten hread hnone
    cases h : encodeArgument lib value t with
    | error e => exact ⟨e, rfl⟩
    | ok bytes =>
      obtain ⟨x, hx, -⟩ := encodeArgument_sound hlib hwritten hread h
      exact absurd ((hx x).2 rfl) (hnone x)
  · intro t value x bytes hwritten ht hx hbytes
    rw [encodeArgument, takes_of_inferTypeTag hlib hwritten ht x hx, ok_bind, hbytes, okOr_some]
  · intro payload entryFunction hwritten h
    have hargs := (List.forall₂_and_left _ _).2 ⟨hwritten, toEntryFunction_args h⟩
    refine hargs.imp fun value bytes harg => ?_
    obtain ⟨hvalue, t, ht, hbytes⟩ := harg
    obtain ⟨x, hx⟩ := encodeArgument_sound hlib hvalue (not_misread_of_inferTypeTag ht) hbytes
    exact ⟨t, x, ht, hx⟩

/-- A parser of decimal numerals, with crates whose errors have no text. -/
def sampleArgumentLib : ArgumentLib where
  error := fun _ => ""
  bcsError := ""
  parseBytes := fun text =>
    match Decimal.stripPlus text with
    | [] => none
    | c :: rest =>
      if c.isDigit = true ∧ rest.all (fun d => d.isDigit || d = '_') then
        some (Decimal.value ((c :: rest).filter (· ≠ '_')))
      else none

lemma sampleArgumentLib_lawful : sampleArgumentLib.Lawful := by
  intro text n
  simp only [sampleArgumentLib, Numeral]
  split
  case h_1 hnil => simp [hnil]
  case h_2 c rest hcons =>
    simp only [hcons, List.cons.injEq, List.all_eq_true, Bool.or_eq_true, decide_eq_true_eq]
    constructor
    · intro h
      split at h
      case isTrue hdigits => exact ⟨c, rest, ⟨rfl, rfl⟩, hdigits.1, hdigits.2, (Option.some.inj h).symm⟩
      case isFalse => cases h
    · rintro ⟨_, _, ⟨rfl, rfl⟩, hc, hrest, rfl⟩
      exact if_pos ⟨hc, hrest⟩

/-- Two bytes, one of them in hex. -/
theorem encodeArgument_spec_sample :
    encodeArgument sampleArgumentLib (.arr [.num (.posInt 1), .str "0x02"]) (.vector .u8) =
      .ok [2, 1, 2] ∧
    ∃ x, (∀ y, Denotes (.vector .u8) (.arr [.num (.posInt 1), .str "0x02"]) y ↔ y = x) ∧
      decodeValue (.vector .u8) [2, 1, 2] = some (x, []) := by
  have hwrite : (MoveValue.vector [.u8 1, .u8 2]).serialize = some [2, 1, 2] := by
    show some (leb128 2 ++ [1, 2]) = _
    rw [leb128_of_lt (by decide)]
    rfl
  have hbytes : encodeArgument sampleArgumentLib (.arr [.num (.posInt 1), .str "0x02"]) (.vector .u8) =
      .ok [2, 1, 2] := by
    have hparse : parseMoveValue sampleArgumentLib (.vector .u8)
        (.arr [.num (.posInt 1), .str "0x02"]) = .ok (.vector [.u8 1, .u8 2]) := rfl
    rw [encodeArgument, hparse, ok_bind, hwrite, okOr_some]
  have hspec := encodeArgument_spec sampleArgumentLib sampleArgumentLib_lawful
  refine ⟨hbytes, hspec.1 _ _ _ ?_ (hspec.2.2.1 _ _ rfl) hbytes⟩
  intro number hin text htext
  subst htext
  cases hin with
  | item hitem hin =>
    rcases List.mem_pair.1 hitem with rfl | rfl <;> cases hin

/-- A negative number, which is no boolean, is false; one is true; and ten is the address `0x10`. -/
theorem encodeArgument_misread :
    (∀ b, ¬ DenotesBool (.num (.negInt (-1))) b) ∧
    encodeArgument sampleArgumentLib (.num (.negInt (-1))) .bool = .ok [0] ∧
    encodeArgument sampleArgumentLib (.num (.posInt 1)) .bool = .ok [1] ∧
    (∀ a, ¬ DenotesAddress (.num (.posInt 10)) a) ∧
    encodeArgument sampleArgumentLib (.num (.posInt 10)) .address = .ok (List.replicate 31 0 ++ [16]) := by
  refine ⟨?_, rfl, rfl, ?_, rfl⟩
  · rintro b (h | ⟨_, h, -⟩ | ⟨_, n, h, hn, -⟩)
    · cases h
    · cases h
    · cases h
      cases hn
  · rintro a ⟨text, bytes, h, -⟩
    cases h

end GemCore.Aptos
