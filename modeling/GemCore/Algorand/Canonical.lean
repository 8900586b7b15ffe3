import Mathlib.Data.List.Nodup
import Mathlib.Tactic.NormNum
import GemCore.Algorand.Serialization
import GemCore.Lib.MessagePack

/-!
# Canonical Algorand transactions

The canonical encoding of an Algorand transaction is one map of its fields in the order of their
keys, in the shortest forms, without the fields whose value is zero. A reference reader of
MessagePack tells when the bytes of a transaction are canonical.

Three things can go wrong: only the amount of a payment and an empty note are left out when they are
zero, the length of the genesis id is kept in one byte, and the lengths of the genesis hash and the
note in two.

## Main definitions

* `Field` — the value of a field.
* `fields` — the fields of a transaction, by key.
* `Canonical` — the bytes are the canonical encoding of a transaction.
* `WellFormed` — the transactions that are encoded canonically.

## Main results

* `item_encode_field` — a value that fits is read back.
* `encodeTransaction_canonical_iff` — when the encoding is canonical.
-/

namespace GemCore.Algorand

open Lib

/-! ## Fields -/

/-- The value of a field. -/
inductive Field where
  | uint (value : UInt64)
  | text (value : String)
  | address (value : AlgorandAddress)
  | hash (value : List UInt8)
  | note (value : List UInt8)

namespace Field

/-- The value a reader must find. -/
def value : Field → MessagePack
  | uint value => .int value.toNat
  | text value => .str value
  | address value => .bin value.val
  | hash value => .bin value
  | note value => .bin value

/-- The bytes the encoder writes. -/
def encode : Field → List UInt8
  | uint value => encodeUint value
  | text value => encodeString value
  | address value => encodeAddress value
  | hash value => encodeBytes value
  | note value => encodeBytes value

/-- The values that the canonical encoding leaves out: zero, the empty text, the empty note, and the
address or hash of zero bytes. -/
def IsZero : Field → Prop
  | uint value => value = 0
  | text value => value = ""
  | address value => ∀ b ∈ value.val, b = 0
  | hash value => ∀ b ∈ value, b = 0
  | note value => value = []

instance (field : Field) : Decidable field.IsZero := by
  cases field with
  | uint value => exact inferInstanceAs (Decidable (value = 0))
  | text value => exact inferInstanceAs (Decidable (value = ""))
  | address value => exact List.decidableBAll (· = 0) value.val
  | hash value => exact List.decidableBAll (· = 0) value
  | note value => exact inferInstanceAs (Decidable (value = []))

/-- The length of the value fits the head that is written for it. -/
def Fits : Field → Prop
  | uint _ => True
  | text value => value.toUTF8.data.toList.length < 2 ^ 8
  | address _ => True
  | hash value => value.length < 2 ^ 16
  | note value => value.length < 2 ^ 16

instance (field : Field) : Decidable field.Fits := by
  cases field <;> unfold Fits <;> infer_instance

end Field

/-- The fields of every transaction between the keys `fee` and `note`. -/
def commonFields (tx : AlgorandTransaction) : List (String × Field) :=
  [("fee", .uint tx.fee), ("fv", .uint tx.firstRound), ("gen", .text tx.genesisId),
    ("gh", .hash tx.genesisHash), ("lv", .uint tx.lastRound), ("note", .note tx.note)]

/-- The sender and the type. -/
def senderAndType (tx : AlgorandTransaction) : List (String × Field) :=
  [("snd", .address tx.sender), ("type", .text tx.operation.txType)]

/-- **The fields of a transaction**, by their keys in ascending order. -/
def fields (tx : AlgorandTransaction) : List (String × Field) :=
  match tx.operation with
  | .payment destination amount =>
    ("amt", .uint amount) :: commonFields tx ++ ("rcv", .address destination) :: senderAndType tx
  | .assetTransfer destination amount assetId =>
    ("aamt", .uint amount) :: ("arcv", .address destination) :: commonFields tx ++
      senderAndType tx ++ [("xaid", .uint assetId)]
  | .assetOptIn assetId =>
    ("arcv", .address tx.sender) :: commonFields tx ++ senderAndType tx ++
      [("xaid", .uint assetId)]

/-- A field as an entry of a map. -/
def entryOf (field : String × Field) : MessagePack × MessagePack := (.str field.1, field.2.value)

/-- **The canonical encoding of a transaction**: the strict reader finds one map and nothing behind
it, whose head counts its entries; the keys are strictly ascending; the entries are fields of the
transaction, with all those that are not zero and none that is. -/
def Canonical (tx : AlgorandTransaction) (bytes : List UInt8) : Prop :=
  ∃ entries : List (String × Field),
    MessagePack.decode true bytes = some (.map (entries.map entryOf)) ∧
    bytes.head? = some (UInt8.ofNat (0x80 + entries.length)) ∧
    (entries.map Prod.fst).Pairwise (· < ·) ∧
    (∀ field ∈ fields tx, ¬field.2.IsZero → field ∈ entries) ∧
    (∀ field ∈ entries, field ∈ fields tx) ∧
    ∀ field ∈ entries, ¬field.2.IsZero

/-- **The transactions that are encoded canonically**: the genesis id has from 1 to 255 bytes, the
genesis hash is not zero and below 65536 bytes, the note is below 65536 bytes, and the fee, the
rounds, the sender and what the operation writes are not zero. The amount of a payment may be. -/
def WellFormed (tx : AlgorandTransaction) : Prop :=
  tx.genesisId ≠ "" ∧ tx.genesisId.toUTF8.data.toList.length < 2 ^ 8 ∧
    (∃ b ∈ tx.genesisHash, b ≠ 0) ∧ tx.genesisHash.length < 2 ^ 16 ∧ tx.note.length < 2 ^ 16 ∧
    tx.fee ≠ 0 ∧ tx.firstRound ≠ 0 ∧ tx.lastRound ≠ 0 ∧ (∃ b ∈ tx.sender.val, b ≠ 0) ∧
    match tx.operation with
    | .payment destination _ => ∃ b ∈ destination.val, b ≠ 0
    | .assetTransfer destination amount assetId =>
      (∃ b ∈ destination.val, b ≠ 0) ∧ amount ≠ 0 ∧ assetId ≠ 0
    | .assetOptIn assetId => assetId ≠ 0

/-! ## Values -/

section Values

open MessagePack

variable {depth : ℕ}

/-- One value behind its head. -/
lemma item_of_head {kind : Kind} {n : ℕ} {input rest : List UInt8}
    (h : head true input = some (kind, n, rest)) :
    item true (depth + 1) input = content (item true depth) kind n rest := by
  rw [item, h]

lemma item_encodeUint (value : UInt64) (rest : List UInt8) :
    item true (depth + 1) (encodeUint value ++ rest) = some (.int value.toNat, rest) := by
  have hlt := value.toNat_lt
  have hone : [UInt8.ofNat value.toNat] = beBytes 1 value.toNat := rfl
  have hform8 : form (0xcc : UInt8).toNat = some (.long .uint 1 (2 ^ 7) (2 ^ 8)) := by decide
  have hform16 : form (0xcd : UInt8).toNat = some (.long .uint 2 (2 ^ 8) (2 ^ 16)) := by decide
  have hform32 : form (0xce : UInt8).toNat = some (.long .uint 4 (2 ^ 16) (2 ^ 32)) := by decide
  have hform64 : form (0xcf : UInt8).toNat = some (.long .uint 8 (2 ^ 32) (2 ^ 64)) := by decide
  unfold encodeUint
  split_ifs with h7 h8 h16 h32
  · have hbyte : (UInt8.ofNat value.toNat).toNat = value.toNat := by
      rw [UInt8.toNat_ofNat']
      omega
    rw [List.singleton_append, item_of_head (head_short (by rw [hbyte, form, if_pos h7]) rest)]
    rfl
  · rw [hone, List.cons_append, item_of_head (head_long hform8 h8 (by omega) h8 rest)]
    rfl
  · rw [List.cons_append, item_of_head (head_long hform16 h16 (by omega) h16 rest)]
    rfl
  · rw [List.cons_append, item_of_head (head_long hform32 h32 (by omega) h32 rest)]
    rfl
  · rw [List.cons_append, item_of_head (head_long hform64 hlt (by omega) hlt rest)]
    rfl

/-- The head of a text. -/
lemma head_encodeString {value : String} (rest : List UInt8) :
    head true (encodeString value ++ rest) =
      if value.toUTF8.data.toList.length < 2 ^ 5 ∨
          2 ^ 5 ≤ value.toUTF8.data.toList.length % 2 ^ 8 then
        some (.str, value.toUTF8.data.toList.length % 2 ^ 8, value.toUTF8.data.toList ++ rest)
      else none := by
  have hform : form (0xd9 : UInt8).toNat = some (.long .str 1 (2 ^ 5) (2 ^ 8)) := by decide
  generalize hbytes : value.toUTF8.data.toList = bytes
  unfold encodeString
  simp only [hbytes]
  split_ifs with hshort hfits hfits
  · have hsmall : ∀ n < 2 ^ 5, form (0xa0 ||| UInt8.ofNat n).toNat = some (.short .str n) := by
      decide
    rw [List.cons_append, head_short (hsmall _ hshort), Nat.mod_eq_of_lt (by omega)]
  · exact absurd (.inl hshort) hfits
  · have hone : UInt8.ofNat bytes.length :: bytes = beBytes 1 bytes.length ++ bytes := rfl
    rw [hone, List.cons_append, List.append_assoc, head_long_eq hform, if_neg (by omega)]
    norm_num
  · have hone : UInt8.ofNat bytes.length :: bytes = beBytes 1 bytes.length ++ bytes := rfl
    rw [hone, List.cons_append, List.append_assoc, head_long_eq hform, if_pos ⟨rfl, by omega⟩]

/-- The head of a byte string. -/
lemma head_encodeBytes {bytes : List UInt8} (rest : List UInt8) :
    head true (encodeBytes bytes ++ rest) =
      if bytes.length < 2 ^ 8 ∨ 2 ^ 8 ≤ bytes.length % 2 ^ 16 then
        some (.bin, bytes.length % 2 ^ 16, bytes ++ rest)
      else none := by
  have hform8 : form (0xc4 : UInt8).toNat = some (.long .bin 1 0 (2 ^ 8)) := by decide
  have hform16 : form (0xc5 : UInt8).toNat = some (.long .bin 2 (2 ^ 8) (2 ^ 16)) := by decide
  unfold encodeBytes
  split_ifs with hshort hfits hfits
  · have hone : UInt8.ofNat bytes.length :: bytes = beBytes 1 bytes.length ++ bytes := rfl
    rw [hone, List.cons_append, List.append_assoc,
      head_long hform8 (by omega) (by omega) (by omega), Nat.mod_eq_of_lt (by omega)]
  · exact absurd (.inl hshort) hfits
  · rw [List.cons_append, List.append_assoc, head_long_eq hform16, if_neg (by omega)]
    norm_num
  · rw [List.cons_append, List.append_assoc, head_long_eq hform16, if_pos ⟨rfl, by omega⟩]

/-- A text whose length fits is read back. -/
lemma item_encodeString {value : String} (h : value.toUTF8.data.toList.length < 2 ^ 8)
    (rest : List UInt8) :
    item true (depth + 1) (encodeString value ++ rest) = some (.str value, rest) := by
  have hhead := @head_encodeString value rest
  rw [if_pos (by omega), Nat.mod_eq_of_lt h] at hhead
  rw [item_of_head hhead, content, takeBytes_append rest rfl]
  simp only [Option.bind_some, fromUTF8?_eq_some_iff.mpr rfl, Option.map_some]

/-- A byte string whose length fits is read back. -/
lemma item_encodeBytes {bytes : List UInt8} (h : bytes.length < 2 ^ 16) (rest : List UInt8) :
    item true (depth + 1) (encodeBytes bytes ++ rest) = some (.bin bytes, rest) := by
  have hhead := @head_encodeBytes bytes rest
  rw [if_pos (by omega), Nat.mod_eq_of_lt h] at hhead
  rw [item_of_head hhead, content, takeBytes_append rest rfl]
  rfl

/-- **A value that fits is read back.** -/
theorem item_encode_field {field : Field} (h : field.Fits) (rest : List UInt8) :
    item true (depth + 1) (field.encode ++ rest) = some (field.value, rest) := by
  cases field with
  | uint value => exact item_encodeUint value rest
  | text value => exact item_encodeString h rest
  | address value =>
    have hlength := value.property
    exact item_encodeBytes (by omega) rest
  | hash value | note value => exact item_encodeBytes h rest

/-- **A value that does not fit is not read back**: its head holds a smaller length. -/
theorem value_ne_of_not_fits {field : Field} (h : ¬field.Fits) {rest rest' : List UInt8}
    {value : MessagePack}
    (hread : item true (depth + 1) (field.encode ++ rest) = some (value, rest')) :
    value ≠ field.value := by
  have htaken : ∀ {n : ℕ} {input data rest : List UInt8},
      takeBytes n input = some (data, rest) → data.length = n := by
    intro n input data rest htake
    unfold takeBytes at htake
    split_ifs at htake with hle
    rw [← (Prod.mk.inj (Option.some.inj htake)).1, List.length_take]
    omega
  have hbytes : ∀ {bytes : List UInt8}, ¬bytes.length < 2 ^ 16 →
      item true (depth + 1) (encodeBytes bytes ++ rest) = some (value, rest') →
      value ≠ .bin bytes := by
    intro bytes hlarge hread heq
    have hhead := @head_encodeBytes bytes rest
    split_ifs at hhead
    · rw [item_of_head hhead, content] at hread
      obtain ⟨⟨data, rest''⟩, htake, hvalue⟩ := Option.map_eq_some_iff.mp hread
      have hlength := htaken htake
      rw [heq] at hvalue
      rw [MessagePack.bin.inj (Prod.mk.inj hvalue).1] at hlength
      omega
    · rw [item, hhead] at hread
      cases hread
  cases field with
  | uint value | address value => exact absurd trivial h
  | hash bytes | note bytes => exact hbytes h hread
  | text s =>
    intro heq
    have hlarge : ¬s.toUTF8.data.toList.length < 2 ^ 8 := h
    have hhead := @head_encodeString s rest
    rw [Field.encode] at hread
    split_ifs at hhead
    · rw [item_of_head hhead, content] at hread
      obtain ⟨⟨data, rest''⟩, htake, hread⟩ := Option.bind_eq_some_iff.mp hread
      obtain ⟨s', hs', hvalue⟩ := Option.map_eq_some_iff.mp hread
      have hlength := htaken htake
      rw [heq] at hvalue
      rw [MessagePack.str.inj (Prod.mk.inj hvalue).1] at hs'
      rw [← fromUTF8?_eq_some_iff.mp hs'] at hlength
      omega
    · rw [item, hhead] at hread
      cases hread

end Values

/-! ## Transactions -/

/-- Whether the encoder writes a field: it leaves out the amount of a payment and the note. -/
def IsWritten (field : String × Field) : Bool :=
  if field.1 = "amt" ∨ field.1 = "note" then ¬field.2.IsZero else true

/-- The fields that are written. -/
def written (tx : AlgorandTransaction) : List (String × Field) := (fields tx).filter IsWritten

/-- The bytes of a field. -/
def encodeField (field : String × Field) : List UInt8 := encodeString field.1 ++ field.2.encode

/-- The keys of an operation. -/
def keysOf : Operation → List String
  | .payment _ _ => ["amt", "fee", "fv", "gen", "gh", "lv", "note", "rcv", "snd", "type"]
  | .assetTransfer _ _ _ =>
    ["aamt", "arcv", "fee", "fv", "gen", "gh", "lv", "note", "snd", "type", "xaid"]
  | .assetOptIn _ => ["arcv", "fee", "fv", "gen", "gh", "lv", "note", "snd", "type", "xaid"]

lemma map_fst_fields (tx : AlgorandTransaction) :
    (fields tx).map Prod.fst = keysOf tx.operation := by
  rw [fields]
  cases tx.operation <;> rfl

/-- The keys are ascending. -/
lemma pairwise_keys (tx : AlgorandTransaction) :
    ((fields tx).map Prod.fst).Pairwise (· < ·) := by
  rw [map_fst_fields]
  cases tx.operation <;> rw [keysOf] <;> decide

/-- A key has one field. -/
lemma eq_of_key_eq {tx : AlgorandTransaction} {e f : String × Field} (he : e ∈ fields tx)
    (hf : f ∈ fields tx) (hkey : e.1 = f.1) : e = f := by
  have hnodup : ((fields tx).map Prod.fst).Nodup := by
    rw [map_fst_fields]
    cases tx.operation <;> rw [keysOf] <;> decide
  exact List.inj_on_of_nodup_map hnodup he hf hkey

/-- The keys are short. -/
lemma length_key {tx : AlgorandTransaction} {field : String × Field} (h : field ∈ fields tx) :
    field.1.toUTF8.data.toList.length < 2 ^ 8 := by
  have hkey : field.1 ∈ keysOf tx.operation := by
    rw [← map_fst_fields]
    exact List.mem_map_of_mem h
  have hall : ∀ key ∈ keysOf tx.operation, key.toUTF8.data.toList.length < 2 ^ 8 := by
    cases tx.operation <;> rw [keysOf] <;> decide
  exact hall _ hkey

lemma filter_commonFields (tx : AlgorandTransaction) :
    (commonFields tx).filter IsWritten =
      [("fee", .uint tx.fee), ("fv", .uint tx.firstRound), ("gen", .text tx.genesisId),
        ("gh", .hash tx.genesisHash), ("lv", .uint tx.lastRound)] ++
        if tx.note.isEmpty then [] else [("note", .note tx.note)] := by
  rw [commonFields]
  cases tx.note <;> rfl

/-- The common fields as they are written. -/
lemma encodeCommonFields_eq (tx : AlgorandTransaction) :
    encodeCommonFields tx = ((commonFields tx).filter IsWritten).flatMap encodeField := by
  rw [filter_commonFields, encodeCommonFields]
  split_ifs <;>
    simp only [List.flatMap_append, List.flatMap_cons, List.flatMap_nil, encodeField, Field.encode,
      List.append_assoc, List.append_nil]

lemma encodeSenderAndType_eq (tx : AlgorandTransaction) :
    encodeSenderAndType tx = (senderAndType tx).flatMap encodeField := by
  simp only [encodeSenderAndType, senderAndType, List.flatMap_cons, List.flatMap_nil, encodeField,
    Field.encode, List.append_nil]

/-- The amount of a payment as it is written. -/
lemma filter_amount (amount : UInt64) :
    [("amt", Field.uint amount)].filter IsWritten =
      if 0 < amount then [("amt", .uint amount)] else [] := by
  by_cases h : amount = 0
  · rw [h]
    rfl
  · have hwritten : IsWritten ("amt", .uint amount) = true := by
      rw [IsWritten, if_pos (Or.inl rfl)]
      exact decide_eq_true h
    rw [if_pos (UInt64.pos_iff_ne_zero.mpr h), List.filter_cons_of_pos hwritten]
    rfl

/-- The fields that are written, by the operation. -/
lemma written_eq (tx : AlgorandTransaction) :
    written tx = match tx.operation with
      | .payment destination amount =>
        [("amt", Field.uint amount)].filter IsWritten ++ (commonFields tx).filter IsWritten ++
          ("rcv", .address destination) :: senderAndType tx
      | .assetTransfer destination amount assetId =>
        ("aamt", .uint amount) :: ("arcv", .address destination) ::
          (commonFields tx).filter IsWritten ++ senderAndType tx ++ [("xaid", .uint assetId)]
      | .assetOptIn assetId =>
        ("arcv", .address tx.sender) :: (commonFields tx).filter IsWritten ++ senderAndType tx ++
          [("xaid", .uint assetId)] := by
  unfold written fields
  cases tx.operation with
  | payment destination amount =>
    rw [List.filter_append, ← @List.singleton_append _ ("amt", Field.uint amount),
      List.filter_append]
    rfl
  | assetTransfer destination amount assetId =>
    simp only [List.cons_append, List.append_assoc]
    rw [List.filter_cons_of_pos rfl, List.filter_cons_of_pos rfl, List.filter_append]
    rfl
  | assetOptIn assetId =>
    simp only [List.cons_append, List.append_assoc]
    rw [List.filter_cons_of_pos rfl, List.filter_append]
    rfl

/-- The size is the number of fields that are written. -/
lemma head_size (tx : AlgorandTransaction) :
    0x80 ||| tx.size = UInt8.ofNat (0x80 + (written tx).length) := by
  have hcommon : ((commonFields tx).filter IsWritten).length = if tx.note.isEmpty then 5 else 6 := by
    rw [filter_commonFields]
    split_ifs <;> rfl
  have hlast : (senderAndType tx).length = 2 := rfl
  rw [written_eq, AlgorandTransaction.size]
  cases tx.operation with
  | payment destination amount =>
    by_cases hpos : 0 < amount
    · have hne := UInt64.pos_iff_ne_zero.mp hpos
      simp only [filter_amount, Operation.size, if_pos hpos, if_neg hne, List.length_append,
        List.length_cons, List.length_nil, hcommon, hlast]
      split_ifs <;> decide
    · have hzero := not_not.mp (mt UInt64.pos_iff_ne_zero.mpr hpos)
      simp only [filter_amount, Operation.size, if_neg hpos, if_pos hzero, List.length_append,
        List.length_cons, List.length_nil, hcommon, hlast]
      split_ifs <;> decide
  | assetTransfer destination amount assetId | assetOptIn assetId =>
    simp only [Operation.size, List.length_append, List.length_cons, List.length_nil, hcommon, hlast]
    split_ifs <;> decide

/-- **The bytes of a transaction**: a head that counts the fields that are written, and these. -/
theorem encodeTransaction_eq (tx : AlgorandTransaction) :
    encodeTransaction tx =
      .ok (UInt8.ofNat (0x80 + (written tx).length) :: (written tx).flatMap encodeField) := by
  rw [encodeTransaction, ← head_size, written_eq]
  cases tx.operation with
  | payment destination amount =>
    simp only [filter_amount, Operation.paymentAmount, encodePayment, encodeCommonFields_eq,
      encodeSenderAndType_eq]
    split_ifs <;>
      simp only [List.flatMap_append, List.flatMap_cons, List.flatMap_nil, List.nil_append,
        encodeField, Field.encode, List.append_assoc]
  | assetTransfer destination amount assetId =>
    simp only [Operation.paymentAmount, encodeAssetTransfer, encodeCommonFields_eq,
      encodeSenderAndType_eq, List.flatMap_append, List.flatMap_cons, List.flatMap_nil, encodeField,
      Field.encode, List.append_assoc, List.append_nil, List.nil_append]
  | assetOptIn assetId =>
    simp only [Operation.paymentAmount, encodeAssetOptIn, encodeCommonFields_eq,
      encodeSenderAndType_eq, List.flatMap_append, List.flatMap_cons, List.flatMap_nil, encodeField,
      Field.encode, List.append_assoc, List.append_nil, List.nil_append]

/-! ## Reading a transaction -/

section Reading

open MessagePack

variable {tx : AlgorandTransaction}

lemma length_written_lt (tx : AlgorandTransaction) : (written tx).length < 16 := by
  have hle := List.length_filter_le IsWritten (fields tx)
  have hfields : (fields tx).length = (keysOf tx.operation).length := by
    rw [← map_fst_fields, List.length_map]
  have hkeys : (keysOf tx.operation).length < 16 := by
    cases tx.operation <;> rw [keysOf] <;> decide
  rw [written]
  omega

lemma mem_fields {field : String × Field} (h : field ∈ written tx) : field ∈ fields tx :=
  (List.mem_filter.mp h).1

/-- Every transaction has more than the one byte of its head. -/
lemma length_flatMap_pos {entries : List (String × Field)} (h : entries ≠ []) :
    0 < (entries.flatMap encodeField).length := by
  obtain ⟨field, entries, rfl⟩ := List.exists_cons_of_ne_nil h
  rw [List.flatMap_cons, List.length_append, encodeField, List.length_append]
  have hpos : 0 < (encodeString field.1).length := by
    simp only [encodeString]
    split_ifs <;> exact Nat.succ_pos _
  omega

/-- What is read at the front of the entries of a map. -/
lemma decode_map {entries : List (String × Field)} (h : entries ≠ [])
    (hlength : entries.length < 16) :
    ∃ depth, MessagePack.decode true
        (UInt8.ofNat (0x80 + entries.length) :: entries.flatMap encodeField) =
      match readMany (readPair (item true (depth + 1))) entries.length
          (entries.flatMap encodeField) with
      | some (found, []) => some (.map found)
      | _ => none := by
  have hform : ∀ n < 16, form (UInt8.ofNat (0x80 + n)).toNat = some (.short .map n) := by decide
  obtain ⟨depth, hdepth⟩ : ∃ depth, (entries.flatMap encodeField).length = depth + 1 :=
    ⟨_, (Nat.sub_add_cancel (length_flatMap_pos h)).symm⟩
  refine ⟨depth, ?_⟩
  rw [MessagePack.decode, List.length_cons, hdepth,
    item_of_head (head_short (hform _ hlength) _), content]
  generalize readMany _ _ _ = found
  rcases found with - | ⟨found, - | ⟨b, rest⟩⟩ <;> rfl

/-- A field that fits is read back. -/
lemma readPair_encodeField {depth : ℕ} {field : String × Field}
    (hkey : field.1.toUTF8.data.toList.length < 2 ^ 8) (hfits : field.2.Fits)
    (rest : List UInt8) :
    readPair (item true (depth + 1)) (encodeField field ++ rest) = some (entryOf field, rest) := by
  rw [encodeField, List.append_assoc, readPair, item_encodeString hkey]
  simp only [item_encode_field hfits, Option.map_some]
  rfl

/-- **Fields that fit are read back**, as the entries of one map. -/
theorem decode_of_fits {entries : List (String × Field)} (h : entries ≠ [])
    (hlength : entries.length < 16)
    (hkeys : ∀ field ∈ entries, field.1.toUTF8.data.toList.length < 2 ^ 8)
    (hfits : ∀ field ∈ entries, field.2.Fits) :
    MessagePack.decode true (UInt8.ofNat (0x80 + entries.length) :: entries.flatMap encodeField) =
      some (.map (entries.map entryOf)) := by
  obtain ⟨depth, hdecode⟩ := decode_map h hlength
  have hread := @readMany_append _ _ (readPair (item true (depth + 1))) encodeField entryOf entries
    (fun field hmem => readPair_encodeField (hkeys field hmem) (hfits field hmem)) 0 []
  simp only [Nat.add_zero, List.append_nil, readMany, Option.map_some] at hread
  rw [hdecode, hread]

/-- A field that does not fit is not read back: its key has another value. -/
lemma readMany_of_not_fits {depth n : ℕ} {field : String × Field}
    (hkey : field.1.toUTF8.data.toList.length < 2 ^ 8) (hfits : ¬field.2.Fits)
    {rest rest' : List UInt8} {found : List (MessagePack × MessagePack)}
    (h : readMany (readPair (item true (depth + 1))) (n + 1) (encodeField field ++ rest) =
      some (found, rest')) :
    ∃ value, (MessagePack.str field.1, value) ∈ found ∧ value ≠ field.2.value := by
  rw [readMany, encodeField, List.append_assoc, readPair, item_encodeString hkey] at h
  cases hvalue : item true (depth + 1) (field.2.encode ++ rest) with
  | none =>
    simp only [hvalue, Option.map_none] at h
    cases h
  | some read =>
    simp only [hvalue, Option.map_some] at h
    obtain ⟨others, -, heq⟩ := Option.map_eq_some_iff.mp h
    rw [← (Prod.mk.inj heq).1]
    exact ⟨read.1, List.mem_cons_self, value_ne_of_not_fits hfits hvalue⟩

/-- **The first field that does not fit is not read back.**

**Proof sketch.** The fields before it fit, so that the counted reader finds them and goes on at the
key of this one, which is read back too; its value is then read with too small a length. -/
theorem exists_of_not_fits {entries : List (String × Field)}
    (hlength : entries.length < 16)
    (hkeys : ∀ field ∈ entries, field.1.toUTF8.data.toList.length < 2 ^ 8)
    (hfits : ¬∀ field ∈ entries, field.2.Fits) {found : List (MessagePack × MessagePack)}
    (hfound : MessagePack.decode true
      (UInt8.ofNat (0x80 + entries.length) :: entries.flatMap encodeField) = some (.map found)) :
    ∃ field ∈ entries, ∃ value, (MessagePack.str field.1, value) ∈ found ∧
      value ≠ field.2.value := by
  push Not at hfits
  obtain ⟨bad, hbad⟩ : ∃ bad, entries.find? (fun field => ¬field.2.Fits) = some bad := by
    rw [← Option.isSome_iff_exists, List.find?_isSome]
    obtain ⟨bad, hmem, hnot⟩ := hfits
    exact ⟨bad, hmem, decide_eq_true hnot⟩
  obtain ⟨hnot, before, after, rfl, hbefore⟩ := List.find?_eq_some_iff_append.mp hbad
  have hmem : bad ∈ before ++ bad :: after := List.mem_append_right _ List.mem_cons_self
  obtain ⟨depth, hdecode⟩ := decode_map (List.ne_nil_of_mem hmem) hlength
  have hread := @readMany_append _ _ (readPair (item true (depth + 1))) encodeField entryOf before
    (fun field hmem => readPair_encodeField (hkeys field (List.mem_append_left _ hmem))
      (by simpa using hbefore field hmem)) (after.length + 1)
    (encodeField bad ++ after.flatMap encodeField)
  have hflat : (before ++ bad :: after).flatMap encodeField =
      before.flatMap encodeField ++ (encodeField bad ++ after.flatMap encodeField) := by
    rw [List.flatMap_append, List.flatMap_cons]
  have hlen : (before ++ bad :: after).length = before.length + (after.length + 1) :=
    List.length_append
  rw [hfound, hflat, hlen, hread] at hdecode
  cases htail : readMany (readPair (item true (depth + 1))) (after.length + 1)
      (encodeField bad ++ after.flatMap encodeField) with
  | none =>
    rw [htail] at hdecode
    cases hdecode
  | some tail =>
    obtain ⟨others, rest⟩ := tail
    obtain ⟨value, hvalue, hne⟩ :=
      readMany_of_not_fits (hkeys bad hmem) (of_decide_eq_true hnot) htail
    rw [htail] at hdecode
    cases rest with
    | nil =>
      refine ⟨bad, hmem, value, ?_, hne⟩
      rw [MessagePack.map.inj (Option.some.inj hdecode)]
      exact List.mem_append_right _ hvalue
    | cons b rest => cases hdecode

/-- Every transaction has a fee. -/
lemma written_ne_nil (tx : AlgorandTransaction) : written tx ≠ [] := by
  rw [written_eq]
  cases tx.operation <;> simp

/-- **When the bytes of a transaction are canonical**: all fields that are written fit, and none is
zero. -/
theorem canonical_iff (tx : AlgorandTransaction) :
    Canonical tx (UInt8.ofNat (0x80 + (written tx).length) :: (written tx).flatMap encodeField) ↔
      ∀ field ∈ written tx, field.2.Fits ∧ ¬field.2.IsZero := by
  have hkeys : ∀ field ∈ written tx, field.1.toUTF8.data.toList.length < 2 ^ 8 :=
    fun field hmem => length_key (mem_fields hmem)
  constructor
  · rintro ⟨entries, hdecode, -, -, -, hfields, hzero⟩
    -- an entry with the key of a field is that field
    have hentry : ∀ field ∈ written tx, ∀ value, (MessagePack.str field.1, value) ∈
        entries.map entryOf → field ∈ entries ∧ field.2.value = value := by
      intro field hmem value hfound
      obtain ⟨e, he, heq⟩ := List.mem_map.mp hfound
      obtain ⟨hkey, rfl⟩ := Prod.mk.inj heq
      obtain rfl := eq_of_key_eq (hfields e he) (mem_fields hmem) (MessagePack.str.inj hkey)
      exact ⟨he, rfl⟩
    have hfits : ∀ field ∈ written tx, field.2.Fits := by
      by_contra hnot
      obtain ⟨bad, hmem, value, hfound, hne⟩ :=
        exists_of_not_fits (length_written_lt tx) hkeys hnot hdecode
      exact hne (hentry bad hmem value hfound).2.symm
    intro field hmem
    refine ⟨hfits field hmem, hzero field (hentry field hmem field.2.value ?_).1⟩
    rw [decode_of_fits (written_ne_nil tx) (length_written_lt tx) hkeys hfits] at hdecode
    rw [← MessagePack.map.inj (Option.some.inj hdecode)]
    exact List.mem_map_of_mem hmem
  · intro h
    refine ⟨written tx, ?_, rfl, ?_, ?_, fun _ => mem_fields, fun field hmem => (h field hmem).2⟩
    · exact decode_of_fits (written_ne_nil tx) (length_written_lt tx) hkeys fun field hmem =>
        (h field hmem).1
    · exact (pairwise_keys tx).sublist (List.filter_sublist.map Prod.fst)
    · intro field hmem hzero
      refine List.mem_filter.mpr ⟨hmem, ?_⟩
      unfold IsWritten
      split_ifs
      · exact decide_eq_true hzero
      · rfl

end Reading

/-! ## The transactions that are encoded canonically -/

/-- A field that is written as the canonical encoding has it. -/
def Field.IsCanonical (field : Field) : Prop := field.Fits ∧ ¬field.IsZero

lemma forall_commonFields_iff (tx : AlgorandTransaction) :
    (∀ field ∈ (commonFields tx).filter IsWritten, field.2.IsCanonical) ↔
      tx.genesisId ≠ "" ∧ tx.genesisId.toUTF8.data.toList.length < 2 ^ 8 ∧
        (∃ b ∈ tx.genesisHash, b ≠ 0) ∧ tx.genesisHash.length < 2 ^ 16 ∧
        tx.note.length < 2 ^ 16 ∧ tx.fee ≠ 0 ∧ tx.firstRound ≠ 0 ∧ tx.lastRound ≠ 0 := by
  have hnote : (∀ field ∈ if tx.note.isEmpty then [] else [("note", Field.note tx.note)],
      field.2.IsCanonical) ↔ tx.note.length < 2 ^ 16 := by
    by_cases hempty : tx.note = []
    · simp [hempty]
    · have hisEmpty : ¬tx.note.isEmpty = true := by rwa [List.isEmpty_iff]
      rw [if_neg hisEmpty, List.forall_mem_singleton]
      exact and_iff_left hempty
  rw [filter_commonFields, List.forall_mem_append, hnote]
  simp only [List.forall_mem_cons, List.not_mem_nil, false_implies, implies_true,
    Field.IsCanonical, Field.Fits, Field.IsZero, true_and, and_true]
  push Not
  constructor
  · rintro ⟨⟨hfee, hfv, ⟨hgenLength, hgen⟩, ⟨hghLength, hgh⟩, hlv⟩, hnoteLength⟩
    exact ⟨hgen, hgenLength, hgh, hghLength, hnoteLength, hfee, hfv, hlv⟩
  · rintro ⟨hgen, hgenLength, hgh, hghLength, hnoteLength, hfee, hfv, hlv⟩
    exact ⟨⟨hfee, hfv, ⟨hgenLength, hgen⟩, ⟨hghLength, hgh⟩, hlv⟩, hnoteLength⟩

lemma isCanonical_address_iff (address : AlgorandAddress) :
    (Field.address address).IsCanonical ↔ ∃ b ∈ address.val, b ≠ 0 := by
  rw [Field.IsCanonical, Field.IsZero]
  push Not
  exact and_iff_right trivial

lemma isCanonical_uint_iff (value : UInt64) : (Field.uint value).IsCanonical ↔ value ≠ 0 :=
  and_iff_right trivial

lemma forall_senderAndType_iff (tx : AlgorandTransaction) :
    (∀ field ∈ senderAndType tx, field.2.IsCanonical) ↔ ∃ b ∈ tx.sender.val, b ≠ 0 := by
  have htype : (Field.text tx.operation.txType).IsCanonical := by
    cases tx.operation <;> rw [Operation.txType] <;> exact ⟨by decide, by decide⟩
  rw [senderAndType, List.forall_mem_cons, List.forall_mem_singleton, isCanonical_address_iff]
  exact and_iff_left htype

/-- The transactions whose fields are all canonical. -/
lemma forall_written_iff (tx : AlgorandTransaction) :
    (∀ field ∈ written tx, field.2.IsCanonical) ↔ WellFormed tx := by
  rw [written_eq, WellFormed]
  cases tx.operation with
  | payment destination amount =>
    have hamount : ∀ field ∈ [("amt", Field.uint amount)].filter IsWritten,
        field.2.IsCanonical := by
      rw [filter_amount]
      split_ifs with hpos
      · rw [List.forall_mem_singleton, isCanonical_uint_iff]
        exact UInt64.pos_iff_ne_zero.mp hpos
      · exact List.forall_mem_nil _
    simp only [List.forall_mem_append, List.forall_mem_cons, forall_commonFields_iff,
      forall_senderAndType_iff, isCanonical_address_iff]
    constructor
    · rintro ⟨⟨-, hgen, hgen', hgh, hgh', hnote, hfee, hfv, hlv⟩, hdestination, hsender⟩
      exact ⟨hgen, hgen', hgh, hgh', hnote, hfee, hfv, hlv, hsender, hdestination⟩
    · rintro ⟨hgen, hgen', hgh, hgh', hnote, hfee, hfv, hlv, hsender, hdestination⟩
      exact ⟨⟨hamount, hgen, hgen', hgh, hgh', hnote, hfee, hfv, hlv⟩, hdestination, hsender⟩
  | assetTransfer destination amount assetId =>
    simp only [List.cons_append, List.forall_mem_append, List.forall_mem_cons,
      List.not_mem_nil, false_implies, implies_true, and_true, forall_commonFields_iff,
      forall_senderAndType_iff, isCanonical_address_iff, isCanonical_uint_iff]
    constructor
    · rintro ⟨hamount, hdestination, ⟨⟨hgen, hgen', hgh, hgh', hnote, hfee, hfv, hlv⟩, hsender⟩, hid⟩
      exact ⟨hgen, hgen', hgh, hgh', hnote, hfee, hfv, hlv, hsender, hdestination, hamount, hid⟩
    · rintro ⟨hgen, hgen', hgh, hgh', hnote, hfee, hfv, hlv, hsender, hdestination, hamount, hid⟩
      exact ⟨hamount, hdestination, ⟨⟨hgen, hgen', hgh, hgh', hnote, hfee, hfv, hlv⟩, hsender⟩, hid⟩
  | assetOptIn assetId =>
    simp only [List.cons_append, List.forall_mem_append, List.forall_mem_cons,
      List.not_mem_nil, false_implies, implies_true, and_true, forall_commonFields_iff,
      forall_senderAndType_iff, isCanonical_address_iff, isCanonical_uint_iff]
    constructor
    · rintro ⟨hsender, ⟨⟨hgen, hgen', hgh, hgh', hnote, hfee, hfv, hlv⟩, -⟩, hid⟩
      exact ⟨hgen, hgen', hgh, hgh', hnote, hfee, hfv, hlv, hsender, hid⟩
    · rintro ⟨hgen, hgen', hgh, hgh', hnote, hfee, hfv, hlv, hsender, hid⟩
      exact ⟨hsender, ⟨⟨hgen, hgen', hgh, hgh', hnote, hfee, hfv, hlv⟩, hsender⟩, hid⟩

/-- The bytes of a transaction are its canonical encoding if it is well-formed, and only then. -/
theorem canonical_iff_wellFormed {tx : AlgorandTransaction} {bytes : List UInt8}
    (h : encodeTransaction tx = .ok bytes) : Canonical tx bytes ↔ WellFormed tx := by
  rw [encodeTransaction_eq] at h
  rw [← Except.ok.inj h, canonical_iff]
  exact forall_written_iff tx

/-- **When the encoding is canonical.** Every transaction is accepted, and its bytes are its
canonical encoding exactly if the lengths of its genesis id, genesis hash and note fit the heads that
are written and no value that is written is zero. -/
theorem encodeTransaction_canonical_iff (tx : AlgorandTransaction) :
    (∃ bytes, encodeTransaction tx = .ok bytes ∧ Canonical tx bytes) ↔ WellFormed tx := by
  constructor
  · rintro ⟨bytes, hbytes, hcanonical⟩
    exact (canonical_iff_wellFormed hbytes).mp hcanonical
  · intro h
    exact ⟨_, encodeTransaction_eq tx, (canonical_iff_wellFormed (encodeTransaction_eq tx)).mpr h⟩

/-- A transfer of a token on the test network. -/
def sampleTransfer (amount : UInt64) : AlgorandTransaction where
  sender := ⟨[0x82, 0x87, 0x2d, 0x60, 0xc3, 0x38, 0xcb, 0x92, 0x80, 0x06, 0x07, 0x0e, 0x02, 0xec, 0x09, 0x42,
    0xad, 0xdc, 0xb7, 0x9e, 0x7f, 0xbd, 0x01, 0xc7, 0x64, 0x58, 0xae, 0xa5, 0x26, 0x89, 0x9b, 0xd3], rfl⟩
  fee := 2340
  firstRound := 15775683
  lastRound := 15776683
  genesisId := "testnet-v1.0"
  genesisHash := [0x48, 0x63, 0xb5, 0x18, 0xa4, 0xb3, 0xc8, 0x4e, 0xc8, 0x10, 0xf2, 0x2d, 0x4f, 0x10, 0x81, 0xcb,
    0x0f, 0x71, 0xf0, 0x59, 0xa7, 0xac, 0x20, 0xde, 0xc6, 0x2f, 0x7f, 0x70, 0xe5, 0x09, 0x3a, 0x22]
  note := []
  operation := .assetTransfer ⟨[0x32, 0x51, 0x64, 0xca, 0xfa, 0x25, 0x3b, 0x11, 0x6f, 0x4b, 0x54, 0xc6, 0x3b, 0xd9, 0x60, 0xd6,
    0x10, 0x20, 0x9d, 0x44, 0xdf, 0x63, 0x5d, 0x65, 0xe0, 0x95, 0xf3, 0x85, 0x5a, 0x96, 0xb9, 0x56], rfl⟩
    amount 13379146

example : WellFormed (sampleTransfer 1000000) :=
  ⟨by decide, by decide, by decide, by decide, by decide, by decide, by decide, by decide, by decide,
    by decide, by decide, by decide⟩

/-- The transfer of no tokens is written with the amount 0, where the payment of nothing has no
amount. -/
theorem encodeTransaction_not_canonical :
    ∃ bytes, encodeTransaction (sampleTransfer 0) = .ok bytes ∧
      bytes.take 7 = [0x8a, 0xa4, 0x61, 0x61, 0x6d, 0x74, 0x00] ∧
      ¬Canonical (sampleTransfer 0) bytes := by
  refine ⟨_, encodeTransaction_eq _, by decide, ?_⟩
  rw [canonical_iff_wellFormed (encodeTransaction_eq _)]
  rintro ⟨-, -, -, -, -, -, -, -, -, -, hamount, -⟩
  exact hamount rfl

end GemCore.Algorand
