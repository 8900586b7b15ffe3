import GemCore.Cardano.Transaction
import GemCore.Lib.Cbor
import Mathlib.Data.List.Basic

/-!
# The CBOR of a Cardano transaction

What the hand-written encoder appends is the shortest form of a CBOR item, so that a reader of
CBOR, also one that insists on shortest forms, takes it without a byte left over and finds the
inputs, outputs, fee, expiration, the hash of the auxiliary data and the segments of the memo.

## Main definitions

* `Transaction.bodyValue`, `signedValue` — the items of a transaction.
* `readBody`, `readSigned` — what such items say.
* `Transaction.InRange` — the ranges of the types of the source.

## Main results

* `majorType_eq` — the encoder writes shortest heads.
* `Transaction.bodyBytes_eq`, `signedBytes_eq` — the bytes are those of the items.
* `chunkMemoSegments_spec` — the segments of a memo.
* `Transaction.canonical` — reading the bytes.
-/

namespace GemCore.Cardano

open Lib

/-! ## The encoder -/

lemma head_lor : ∀ major < 8, ∀ info < 32,
    (UInt8.ofNat major <<< 5) ||| UInt8.ofNat info = UInt8.ofNat (32 * major + info) := by
  decide +kernel

/-- **The encoder writes shortest heads.** -/
theorem majorType_eq {major : ℕ} (hmajor : major < 8) (value : ℕ) :
    majorType (UInt8.ofNat major) value = Cbor.headBytes major value := by
  have hhead := head_lor major hmajor
  rw [majorType, Cbor.headBytes]
  by_cases h24 : value < 24
  · rw [if_pos (by omega), if_pos h24, hhead value (by omega)]
  rw [if_neg (by omega), if_neg h24]
  by_cases h8 : value < 2 ^ 8
  · rw [if_pos (by omega), if_pos h8, ← hhead 24 (by omega)]
    rfl
  rw [if_neg (by omega), if_neg h8]
  by_cases h16 : value < 2 ^ 16
  · rw [if_pos (by omega), if_pos h16, ← hhead 25 (by omega)]
    rfl
  rw [if_neg (by omega), if_neg h16]
  by_cases h32 : value < 2 ^ 32
  · rw [if_pos (by omega), if_pos h32, ← hhead 26 (by omega)]
    rfl
  · rw [if_neg (by omega), if_neg h32, ← hhead 27 (by omega)]
    rfl

lemma unsigned_eq (value : ℕ) : unsigned value = (Cbor.unsigned value).encode := by
  rw [Cbor.encode]
  exact majorType_eq (by norm_num) value

lemma byteString_eq (value : List UInt8) : byteString value = (Cbor.bytes value).encode := by
  rw [Cbor.encode, byteString]
  exact congrArg (· ++ value) (majorType_eq (by norm_num) _)

/-- The bytes of a text, character by character. -/
lemma utf8_eq (value : List Char) : utf8 value = Cbor.utf8 (String.ofList value) := by
  rw [Cbor.utf8, utf8]
  simp [String.toUTF8, List.utf8Encode]

lemma text_eq (value : List Char) : text value = (Cbor.text (String.ofList value)).encode := by
  rw [Cbor.encode, text, utf8_eq]
  exact congrArg (· ++ _) (majorType_eq (by norm_num) _)

lemma array_eq (len : ℕ) : array len = Cbor.headBytes 4 len := majorType_eq (by norm_num) len

lemma map_eq (len : ℕ) : map len = Cbor.headBytes 5 len := majorType_eq (by norm_num) len

lemma tag_eq (value : ℕ) : tag value = Cbor.headBytes 6 value := majorType_eq (by norm_num) value

lemma trueValue_eq : trueValue = (Cbor.simple 21).encode := by
  rw [Cbor.encode]
  rfl

lemma null_eq : null = (Cbor.simple 22).encode := by
  rw [Cbor.encode]
  rfl

/-- Items that are written one after the other. -/
lemma flatMap_eq_encodeItems {α : Type} {write : α → List UInt8} {value : α → Cbor}
    (h : ∀ a, write a = (value a).encode) (l : List α) :
    l.flatMap write = Cbor.encodeItems (l.map value) := by
  induction l with
  | nil => rfl
  | cons a l ih => rw [List.flatMap_cons, List.map_cons, Cbor.encodeItems, h, ih]

/-! ## The items of a transaction -/

/-- The segments of the memo, none without one. -/
def Transaction.segments (transaction : Transaction) : List String :=
  match transaction.memo with
  | none => []
  | some memo => (chunkMemoSegments memo.toList [] 0).map String.ofList

/-- The item of the auxiliary data, for the segments of a memo. -/
def auxiliaryValue (segments : List String) : Cbor :=
  .tag 259 (.map [(.unsigned 0, .map [(.unsigned 0, .map [(.unsigned 6676,
    .map [(.text "memo", .array (segments.map .text))])])])])

/-- The item of an input. -/
def inputValue (input : TransactionInput) : Cbor :=
  .array [.bytes input.transactionHash.val, .unsigned input.outputIndex]

/-- The item of an output. -/
def outputValue (output : TransactionOutput) : Cbor :=
  .array [.bytes output.address, .unsigned output.amount]

/-- The auxiliary data of a transaction, if it has a memo. -/
def Transaction.auxiliary (transaction : Transaction) : Option Cbor :=
  match transaction.segments with
  | [] => none
  | segment :: rest => some (auxiliaryValue (segment :: rest))

section Values

variable (blake2b256 : List UInt8 → FixedBytes 32) (transaction : Transaction)

/-- The hash of the auxiliary data. -/
def Transaction.auxiliaryHash : Option (List UInt8) :=
  transaction.auxiliaryDataBytes.map fun data => (blake2b256 data).val

/-- The item of the body. -/
def Transaction.bodyValue : Cbor :=
  .map ([(.unsigned 0, .array (transaction.inputs.map inputValue)),
    (.unsigned 1, .array (transaction.outputs.map outputValue)),
    (.unsigned 2, .unsigned transaction.fee),
    (.unsigned 3, .unsigned transaction.expirationBlockNumber)] ++
    ((transaction.auxiliaryHash blake2b256).map fun hash =>
      (Cbor.unsigned 7, Cbor.bytes hash)).toList)

/-- The item of the signed transaction. -/
def Transaction.signedValue (publicKey : FixedBytes 32) (signature : FixedBytes 64) :
    Cbor :=
  .array [transaction.bodyValue blake2b256,
    .map [(.unsigned 0, .array [.array [.bytes publicKey.val, .bytes signature.val]])],
    .simple 21, transaction.auxiliary.getD (.simple 22)]

lemma inputBytes_eq (input : TransactionInput) :
    inputBytes input = (inputValue input).encode := by
  rw [inputBytes, array_eq, byteString_eq, unsigned_eq, inputValue]
  simp [Cbor.encode, Cbor.encodeItems]

lemma outputBytes_eq (output : TransactionOutput) :
    outputBytes output = (outputValue output).encode := by
  rw [outputBytes, array_eq, byteString_eq, unsigned_eq, outputValue]
  simp [Cbor.encode, Cbor.encodeItems]

/-- A memo that is not empty has segments. -/
lemma chunkMemoSegments_ne_nil {text segment : List Char} {size : ℕ}
    (h : text ≠ [] ∨ segment ≠ []) : chunkMemoSegments text segment size ≠ [] := by
  induction text generalizing segment size with
  | nil => simp_all [chunkMemoSegments]
  | cons c text ih =>
    rw [chunkMemoSegments]
    split
    · exact List.cons_ne_nil _ _
    · exact ih (.inr (by simp))

/-- **The bytes of the auxiliary data** are those of its item. -/
theorem Transaction.auxiliaryDataBytes_eq :
    transaction.auxiliaryDataBytes = transaction.auxiliary.map Cbor.encode := by
  unfold auxiliaryDataBytes auxiliary segments
  cases transaction.memo with
  | none => rfl
  | some memo =>
    dsimp only
    by_cases hmemo : memo.toList = []
    · rw [if_pos hmemo]
      simp only [hmemo]
      rfl
    · have hne := @chunkMemoSegments_ne_nil memo.toList [] 0 (.inl hmemo)
      rw [if_neg hmemo]
      generalize chunkMemoSegments memo.toList [] 0 = segments at hne
      cases segments with
      | nil => exact absurd rfl hne
      | cons segment rest =>
        rw [List.map_cons, Option.map_some, ← List.map_cons, auxiliaryValue, tag_eq, map_eq,
          unsigned_eq, unsigned_eq, text_eq, array_eq, flatMap_eq_encodeItems text_eq]
        simp [Cbor.encode, Cbor.encodeEntries, Function.comp_def]

/-- **The bytes of the body** are those of its item. -/
theorem Transaction.bodyBytes_eq :
    transaction.bodyBytes blake2b256 = (transaction.bodyValue blake2b256).encode := by
  rw [bodyBytes, bodyValue, auxiliaryHash]
  cases transaction.auxiliaryDataBytes with
  | none =>
    simp [auxiliaryHashBytes, map_eq, array_eq, unsigned_eq, Cbor.encode, Cbor.encodeEntries,
      flatMap_eq_encodeItems inputBytes_eq, flatMap_eq_encodeItems outputBytes_eq]
  | some data =>
    simp [auxiliaryHashBytes, map_eq, array_eq, unsigned_eq, byteString_eq, Cbor.encode,
      Cbor.encodeEntries, flatMap_eq_encodeItems inputBytes_eq,
      flatMap_eq_encodeItems outputBytes_eq]

/-- **The bytes of the signed transaction** are those of its item. -/
theorem Transaction.signedBytes_eq (publicKey : FixedBytes 32)
    (signature : FixedBytes 64) :
    transaction.signedBytes blake2b256 publicKey signature =
      (transaction.signedValue blake2b256 publicKey signature).encode := by
  have haux : transaction.auxiliaryDataBytes.getD null =
      (transaction.auxiliary.getD (.simple 22)).encode := by
    rw [auxiliaryDataBytes_eq, null_eq]
    cases transaction.auxiliary <;> rfl
  rw [signedBytes, signedValue, bodyBytes_eq, haux]
  simp [map_eq, array_eq, unsigned_eq, byteString_eq, trueValue_eq, Cbor.encode,
    Cbor.encodeItems, Cbor.encodeEntries]

end Values

/-! ## The memo -/

lemma length_utf8_append (a b : List Char) :
    (utf8 (a ++ b)).length = (utf8 a).length + (utf8 b).length := by
  rw [utf8, List.flatMap_append, List.length_append]
  rfl

lemma length_utf8_singleton (c : Char) : (utf8 [c]).length = c.utf8Size := by
  simp [utf8]

/-- **The segments of a memo**, from any point of the loop: they are the open segment and the rest
of the text, none is empty, and none has more than 64 bytes.

**Proof sketch.** Induction on the rest of the text. The open segment never has more than 64 bytes:
a character is added to it only if it stays within the limit, or if it is the first. -/
theorem chunkMemoSegments_spec (text segment : List Char) (h : (utf8 segment).length ≤ 64) :
    (chunkMemoSegments text segment (utf8 segment).length).flatten = segment ++ text ∧
      ∀ s ∈ chunkMemoSegments text segment (utf8 segment).length,
        s ≠ [] ∧ (utf8 s).length ≤ 64 := by
  induction text generalizing segment with
  | nil =>
    rw [chunkMemoSegments]
    split
    · rename_i hnil
      simp [hnil]
    · rename_i hne
      simp [hne, h]
  | cons c text ih =>
    rw [chunkMemoSegments]
    by_cases hfull : segment ≠ [] ∧ (utf8 segment).length + c.utf8Size > 64
    · have hc : (utf8 [c]).length ≤ 64 := by
        rw [length_utf8_singleton]
        have := c.utf8Size_le_four
        omega
      obtain ⟨hflatten, hall⟩ := ih [c] hc
      rw [length_utf8_singleton] at hflatten hall
      rw [if_pos hfull, List.flatten_cons, hflatten]
      exact ⟨rfl, List.forall_mem_cons.mpr ⟨⟨hfull.1, h⟩, hall⟩⟩
    · have hsum : (utf8 (segment ++ [c])).length = (utf8 segment).length + c.utf8Size := by
        rw [length_utf8_append, length_utf8_singleton]
      have hle : (utf8 (segment ++ [c])).length ≤ 64 := by
        have hfour := c.utf8Size_le_four
        rw [hsum]
        by_cases hnil : segment = []
        · rw [hnil]
          show 0 + c.utf8Size ≤ 64
          omega
        · by_contra hgt
          exact hfull ⟨hnil, by omega⟩
      obtain ⟨hflatten, hall⟩ := ih (segment ++ [c]) hle
      rw [if_neg hfull, ← hsum]
      rw [List.append_assoc] at hflatten
      exact ⟨hflatten, hall⟩

/-- The segments of a whole memo. -/
lemma chunkMemoSegments_memo (memo : List Char) :
    (chunkMemoSegments memo [] 0).flatten = memo ∧
      ∀ s ∈ chunkMemoSegments memo [] 0, s ≠ [] ∧ (utf8 s).length ≤ 64 :=
  chunkMemoSegments_spec memo [] (Nat.zero_le _)

/-! ## Ranges -/

/-- The ranges of the types of the source: integers of 64 bits, vectors and texts whose length
fits 64 bits. -/
structure Transaction.InRange (transaction : Transaction) : Prop where
  inputs : transaction.inputs.length < 2 ^ 64
  outputs : transaction.outputs.length < 2 ^ 64
  outputIndex : ∀ input ∈ transaction.inputs, input.outputIndex < 2 ^ 64
  address : ∀ output ∈ transaction.outputs, output.address.length < 2 ^ 64
  amount : ∀ output ∈ transaction.outputs, output.amount < 2 ^ 64
  fee : transaction.fee < 2 ^ 64
  expirationBlockNumber : transaction.expirationBlockNumber < 2 ^ 64
  memo : ∀ memo, transaction.memo = some memo → (utf8 memo.toList).length < 2 ^ 64

section Ranges

variable {transaction : Transaction}

lemma fits_inputValue {input : TransactionInput} (h : input.outputIndex < 2 ^ 64) :
    (inputValue input).Fits := by
  have hlen : input.transactionHash.val.length < 2 ^ 64 := by
    rw [input.transactionHash.property]
    norm_num
  refine .array (by norm_num) ?_
  simpa using ⟨Cbor.Fits.bytes hlen, Cbor.Fits.unsigned h⟩

lemma fits_outputValue {output : TransactionOutput} (haddress : output.address.length < 2 ^ 64)
    (hamount : output.amount < 2 ^ 64) : (outputValue output).Fits := by
  refine .array (by norm_num) ?_
  simpa using ⟨Cbor.Fits.bytes haddress, Cbor.Fits.unsigned hamount⟩

/-- There are no more segments than bytes. -/
lemma length_le_length_utf8 {segments : List (List Char)} (h : ∀ s ∈ segments, s ≠ []) :
    segments.length ≤ (utf8 segments.flatten).length := by
  induction segments with
  | nil => exact Nat.zero_le _
  | cons s segments ih =>
    have hrest := ih fun s hs => h s (List.mem_cons_of_mem _ hs)
    have hpos : 0 < (utf8 s).length := by
      cases s with
      | nil => exact absurd rfl (h [] List.mem_cons_self)
      | cons c s =>
        have := c.utf8Size_pos
        rw [utf8, List.flatMap_cons, List.length_append, String.length_utf8EncodeChar]
        omega
    rw [List.flatten_cons, length_utf8_append, List.length_cons]
    omega

/-- The auxiliary data of a transaction in range can be encoded. -/
lemma fits_auxiliary (h : transaction.InRange) :
    (transaction.auxiliary.getD (.simple 22)).Fits := by
  unfold Transaction.auxiliary
  cases hsegments : transaction.segments with
  | nil => exact .simple (by norm_num)
  | cons segment rest =>
    have hmemo : ∃ memo, transaction.memo = some memo ∧
        segment :: rest = (chunkMemoSegments memo.toList [] 0).map String.ofList := by
      unfold Transaction.segments at hsegments
      split at hsegments
      · cases hsegments
      · exact ⟨_, ‹_›, hsegments.symm⟩
    obtain ⟨memo, hmemo, hlist⟩ := hmemo
    obtain ⟨hflatten, hall⟩ := chunkMemoSegments_memo memo.toList
    have hcount : (segment :: rest).length < 2 ^ 64 := by
      have hle := length_le_length_utf8 fun s hs => (hall s hs).1
      rw [hflatten] at hle
      rw [hlist, List.length_map]
      exact hle.trans_lt (h.memo memo hmemo)
    have htexts : ∀ v ∈ (segment :: rest).map Cbor.text, v.Fits := by
      intro v hv
      obtain ⟨s, hs, rfl⟩ := List.mem_map.mp hv
      rw [hlist] at hs
      obtain ⟨chars, hchars, rfl⟩ := List.mem_map.mp hs
      refine .text ?_
      rw [← utf8_eq]
      exact (hall chars hchars).2.trans_lt (by norm_num)
    have hkey : (Cbor.text "memo").Fits := .text (by decide)
    have hsingle : ∀ {key value : Cbor}, key.Fits → value.Fits → (Cbor.map [(key, value)]).Fits := by
      intro key value hkey hvalue
      exact .map (by norm_num) (by simpa using hkey) (by simpa using hvalue)
    exact .tag (by norm_num) (hsingle (.unsigned (by norm_num)) (hsingle (.unsigned (by norm_num))
      (hsingle (.unsigned (by norm_num)) (hsingle hkey
        (.array (by rwa [List.length_map]) htexts)))))

variable (blake2b256 : List UInt8 → FixedBytes 32)

/-- So can its body. -/
lemma fits_bodyValue (h : transaction.InRange) : (transaction.bodyValue blake2b256).Fits := by
  have hinputs : (Cbor.array (transaction.inputs.map inputValue)).Fits := by
    refine .array (by simpa using h.inputs) ?_
    intro v hv
    obtain ⟨input, hinput, rfl⟩ := List.mem_map.mp hv
    exact fits_inputValue (h.outputIndex input hinput)
  have houtputs : (Cbor.array (transaction.outputs.map outputValue)).Fits := by
    refine .array (by simpa using h.outputs) ?_
    intro v hv
    obtain ⟨output, houtput, rfl⟩ := List.mem_map.mp hv
    exact fits_outputValue (h.address output houtput) (h.amount output houtput)
  have hhash : ∀ hash, transaction.auxiliaryHash blake2b256 = some hash → (Cbor.bytes hash).Fits := by
    intro hash heq
    obtain ⟨data, -, rfl⟩ := Option.map_eq_some_iff.mp heq
    refine .bytes ?_
    rw [(blake2b256 data).property]
    norm_num
  have hsmall : ∀ n < 8, (Cbor.unsigned n).Fits := fun n hn => .unsigned (by omega)
  unfold Transaction.bodyValue
  cases hauxiliary : transaction.auxiliaryHash blake2b256 with
  | none =>
    refine .map (by norm_num) ?_ ?_
    · simpa using ⟨hsmall 0 (by norm_num), hsmall 1 (by norm_num), hsmall 2 (by norm_num),
        hsmall 3 (by norm_num)⟩
    · simpa using ⟨hinputs, houtputs, Cbor.Fits.unsigned h.fee,
        Cbor.Fits.unsigned h.expirationBlockNumber⟩
  | some hash =>
    refine .map (by norm_num) ?_ ?_
    · simpa using ⟨hsmall 0 (by norm_num), hsmall 1 (by norm_num), hsmall 2 (by norm_num),
        hsmall 3 (by norm_num), hsmall 7 (by norm_num)⟩
    · simpa using ⟨hinputs, houtputs, Cbor.Fits.unsigned h.fee,
        Cbor.Fits.unsigned h.expirationBlockNumber, hhash hash hauxiliary⟩

lemma fits_signedValue (h : transaction.InRange) (publicKey : FixedBytes 32)
    (signature : FixedBytes 64) :
    (transaction.signedValue blake2b256 publicKey signature).Fits := by
  have hkey : (Cbor.bytes publicKey.val).Fits := .bytes (by rw [publicKey.property]; norm_num)
  have hsignature : (Cbor.bytes signature.val).Fits :=
    .bytes (by rw [signature.property]; norm_num)
  have hwitness : (Cbor.array [.bytes publicKey.val, .bytes signature.val]).Fits :=
    .array (by norm_num) (by simpa using ⟨hkey, hsignature⟩)
  have hwitnesses : (Cbor.map [(.unsigned 0, .array [.array [.bytes publicKey.val,
      .bytes signature.val]])]).Fits := by
    refine .map (by norm_num) ?_ ?_
    · simpa using Cbor.Fits.unsigned (by norm_num)
    · simpa using Cbor.Fits.array (by norm_num) (by simpa using hwitness)
  refine .array (by norm_num) ?_
  simpa using ⟨fits_bodyValue blake2b256 h, hwitnesses, Cbor.Fits.simple (by norm_num),
    fits_auxiliary h⟩

end Ranges

/-! ## What the items say -/

/-- What a body says: inputs as transaction hash and index, outputs as address and amount. -/
structure Body where
  inputs : List (List UInt8 × ℕ)
  outputs : List (List UInt8 × ℕ)
  fee : ℕ
  expirationBlockNumber : ℕ
  auxiliaryHash : Option (List UInt8)

/-- What a signed transaction says. -/
structure Signed where
  body : Body
  publicKey : List UInt8
  signature : List UInt8
  segments : List String

/-- The value under a number. -/
def field (key : ℕ) : List (Cbor × Cbor) → Option Cbor
  | [] => none
  | (.unsigned n, value) :: rest => if n = key then some value else field key rest
  | _ :: rest => field key rest

/-- A number. -/
def readUnsigned : Cbor → Option ℕ
  | .unsigned n => some n
  | _ => none

/-- A byte string. -/
def readBytes : Cbor → Option (List UInt8)
  | .bytes data => some data
  | _ => none

/-- A text. -/
def readText : Cbor → Option String
  | .text s => some s
  | _ => none

/-- A byte string with a number: an input or an output. -/
def readPair : Cbor → Option (List UInt8 × ℕ)
  | .array [.bytes data, .unsigned n] => some (data, n)
  | _ => none

/-- A list of inputs or outputs. -/
def readPairs : Cbor → Option (List (List UInt8 × ℕ))
  | .array items => items.mapM readPair
  | _ => none

/-- The body of a transaction. -/
def readBody : Cbor → Option Body
  | .map entries => do
    let inputs ← (field 0 entries).bind readPairs
    let outputs ← (field 1 entries).bind readPairs
    let fee ← (field 2 entries).bind readUnsigned
    let expirationBlockNumber ← (field 3 entries).bind readUnsigned
    match field 7 entries with
    | none => some ⟨inputs, outputs, fee, expirationBlockNumber, none⟩
    | some value => do
      let hash ← readBytes value
      some ⟨inputs, outputs, fee, expirationBlockNumber, some hash⟩
  | _ => none

/-- The segments of the memo: none for `null`. -/
def readSegments : Cbor → Option (List String)
  | .simple 22 => some []
  | .tag 259 (.map [(.unsigned 0, .map [(.unsigned 0, .map [(.unsigned 6676,
      .map [(.text key, .array segments)])])])]) =>
    if key = "memo" then segments.mapM readText else none
  | _ => none

/-- A signed transaction: the body, one key with its signature, the mark of a valid transaction and
the auxiliary data. -/
def readSigned : Cbor → Option Signed
  | .array [body, .map [(.unsigned 0, .array [.array [.bytes publicKey, .bytes signature]])],
      .simple 21, auxiliary] => do
    let body ← readBody body
    let segments ← readSegments auxiliary
    some ⟨body, publicKey, signature, segments⟩
  | _ => none

section Reading

variable (blake2b256 : List UInt8 → FixedBytes 32) (transaction : Transaction)

/-- What the body of a transaction says. -/
def Transaction.body : Body where
  inputs := transaction.inputs.map fun input => (input.transactionHash.val, input.outputIndex)
  outputs := transaction.outputs.map fun output => (output.address, output.amount)
  fee := transaction.fee
  expirationBlockNumber := transaction.expirationBlockNumber
  auxiliaryHash := transaction.auxiliaryHash blake2b256

/-- A list of items that are all read. -/
lemma mapM_map_eq_some {α β : Type} {value : α → Cbor} {read : Cbor → Option β} {f : α → β}
    (h : ∀ a, read (value a) = some (f a)) (l : List α) :
    (l.map value).mapM read = some (l.map f) := by
  induction l with
  | nil => rfl
  | cons a l ih => simp [List.mapM_cons, h, ih]

lemma readPair_inputValue (input : TransactionInput) :
    readPair (inputValue input) = some (input.transactionHash.val, input.outputIndex) := rfl

lemma readPair_outputValue (output : TransactionOutput) :
    readPair (outputValue output) = some (output.address, output.amount) := rfl

lemma readBody_bodyValue :
    readBody (transaction.bodyValue blake2b256) = some (transaction.body blake2b256) := by
  have hinputs : readPairs (.array (transaction.inputs.map inputValue)) =
      some (transaction.inputs.map fun input => (input.transactionHash.val, input.outputIndex)) :=
    mapM_map_eq_some readPair_inputValue _
  have houtputs : readPairs (.array (transaction.outputs.map outputValue)) =
      some (transaction.outputs.map fun output => (output.address, output.amount)) :=
    mapM_map_eq_some readPair_outputValue _
  unfold Transaction.bodyValue Transaction.body
  cases transaction.auxiliaryHash blake2b256 with
  | none => simp [readBody, field, hinputs, houtputs, readUnsigned]
  | some hash => simp [readBody, field, hinputs, houtputs, readUnsigned, readBytes]

lemma readSegments_auxiliary :
    readSegments (transaction.auxiliary.getD (.simple 22)) = some transaction.segments := by
  unfold Transaction.auxiliary
  cases transaction.segments with
  | nil => rfl
  | cons segment rest =>
    have htexts : ((segment :: rest).map Cbor.text).mapM readText = some (segment :: rest) := by
      have hread := @mapM_map_eq_some String String Cbor.text readText id (fun _ => rfl)
        (segment :: rest)
      rwa [List.map_id] at hread
    simp only [Option.getD_some, auxiliaryValue, readSegments, if_pos, htexts]

lemma readSigned_signedValue (publicKey : FixedBytes 32) (signature : FixedBytes 64) :
    readSigned (transaction.signedValue blake2b256 publicKey signature) =
      some ⟨transaction.body blake2b256, publicKey.val, signature.val, transaction.segments⟩ := by
  simp [Transaction.signedValue, readSigned, readBody_bodyValue, readSegments_auxiliary]

/-- Bodies that say the same are those of transactions with the same inputs and outputs. -/
theorem eq_of_body_eq {other : Transaction}
    (h : transaction.body blake2b256 = other.body blake2b256) :
    transaction.inputs = other.inputs ∧ transaction.outputs = other.outputs := by
  have hinput : Function.Injective fun input : TransactionInput =>
      (input.transactionHash.val, input.outputIndex) := by
    rintro ⟨hash, index⟩ ⟨hash', index'⟩ heq
    obtain ⟨hhash, rfl⟩ := Prod.mk.inj heq
    obtain rfl : hash = hash' := Subtype.ext hhash
    rfl
  have houtput : Function.Injective fun output : TransactionOutput =>
      (output.address, output.amount) := by
    rintro ⟨address, amount⟩ ⟨address', amount'⟩ heq
    obtain ⟨rfl, rfl⟩ := Prod.mk.inj heq
    rfl
  exact ⟨List.map_injective_iff.mpr hinput (congrArg Body.inputs h),
    List.map_injective_iff.mpr houtput (congrArg Body.outputs h)⟩

/-- **The bytes of a transaction are canonical CBOR.** Also a reader that insists on shortest forms
takes the body and the signed transaction without a byte left over and finds what was written; two
transactions with the same body differ in nothing but memos with the same hash. The segments of a
memo are the memo, none is empty, and none has more than 64 bytes.

**Proof sketch.** The bytes are those of an item with the shortest heads, which is read back; what
the item says is read off its form. Bodies that are equal are read as the same. -/
theorem Transaction.canonical (publicKey : FixedBytes 32) (signature : FixedBytes 64)
    (h : transaction.InRange) :
    (∀ strict, ∃ v, Cbor.decode strict (transaction.bodyBytes blake2b256) = some v ∧
      readBody v = some (transaction.body blake2b256)) ∧
    (∀ strict, ∃ v,
      Cbor.decode strict (transaction.signedBytes blake2b256 publicKey signature) = some v ∧
      readSigned v = some ⟨transaction.body blake2b256, publicKey.val, signature.val,
        transaction.segments⟩) ∧
    (∀ other : Transaction, other.InRange →
      transaction.bodyBytes blake2b256 = other.bodyBytes blake2b256 →
      transaction.inputs = other.inputs ∧ transaction.outputs = other.outputs ∧
        transaction.fee = other.fee ∧
        transaction.expirationBlockNumber = other.expirationBlockNumber ∧
        transaction.auxiliaryHash blake2b256 = other.auxiliaryHash blake2b256) ∧
    ∀ memo, transaction.memo = some memo →
      (transaction.segments.map String.toList).flatten = memo.toList ∧
      ∀ s ∈ transaction.segments, s ≠ "" ∧ (Cbor.utf8 s).length ≤ 64 := by
  have hdecode : ∀ (t : Transaction), t.InRange → ∀ strict,
      Cbor.decode strict (t.bodyBytes blake2b256) = some (t.bodyValue blake2b256) := by
    intro t ht strict
    rw [bodyBytes_eq]
    exact Cbor.decode_encode (fits_bodyValue blake2b256 ht)
  refine ⟨fun strict => ⟨_, hdecode transaction h strict, readBody_bodyValue _ _⟩,
    fun strict => ⟨transaction.signedValue blake2b256 publicKey signature, ?_,
      readSigned_signedValue _ _ _ _⟩, ?_, ?_⟩
  · rw [signedBytes_eq]
    exact Cbor.decode_encode (fits_signedValue blake2b256 h publicKey signature)
  · intro other hother hbytes
    have hvalue : transaction.bodyValue blake2b256 = other.bodyValue blake2b256 := by
      have hread := hdecode transaction h true
      rw [hbytes, hdecode other hother true] at hread
      exact (Option.some.inj hread).symm
    have hbody : transaction.body blake2b256 = other.body blake2b256 := by
      have hread := readBody_bodyValue blake2b256 transaction
      rw [hvalue, readBody_bodyValue] at hread
      exact (Option.some.inj hread).symm
    obtain ⟨hinputs, houtputs⟩ := eq_of_body_eq blake2b256 transaction hbody
    exact ⟨hinputs, houtputs, congrArg Body.fee hbody, congrArg Body.expirationBlockNumber hbody,
      congrArg Body.auxiliaryHash hbody⟩
  · intro memo hmemo
    obtain ⟨hflatten, hall⟩ := chunkMemoSegments_memo memo.toList
    have hsegments : transaction.segments =
        (chunkMemoSegments memo.toList [] 0).map String.ofList := by
      unfold Transaction.segments
      rw [hmemo]
    rw [hsegments]
    refine ⟨?_, fun s hs => ?_⟩
    · rw [List.map_map]
      have hid : (String.toList ∘ String.ofList) = id := funext fun _ => String.toList_ofList
      rw [hid, List.map_id, hflatten]
    · obtain ⟨chars, hchars, rfl⟩ := List.mem_map.mp hs
      obtain ⟨hne, hle⟩ := hall chars hchars
      refine ⟨fun hempty => hne ?_, ?_⟩
      · rw [← @String.toList_ofList chars, hempty]
        rfl
      · rw [← utf8_eq]
        exact hle

/-- One input, one output and a memo of two segments. -/
def sampleTransaction : Transaction where
  inputs := [⟨⟨List.replicate 32 7, by decide⟩, 1⟩]
  outputs := [⟨[0x61, 0x62], 2000000⟩]
  fee := 165555
  expirationBlockNumber := 53333345
  memo := some (String.ofList (List.replicate 65 'a'))

/-- The sample is read back with any key, signature and hash. -/
theorem Transaction.canonical_sample :
    ∃ v, Cbor.decode true (sampleTransaction.bodyBytes fun _ => ⟨List.replicate 32 0, by decide⟩) =
        some v ∧
      readBody v = some (sampleTransaction.body fun _ => ⟨List.replicate 32 0, by decide⟩) := by
  have hrange : sampleTransaction.InRange := by
    constructor <;> simp [sampleTransaction, utf8]
    decide
  exact (Transaction.canonical _ sampleTransaction ⟨List.replicate 32 0, by decide⟩
    ⟨List.replicate 64 0, by decide⟩ hrange).1 true

end Reading

end GemCore.Cardano
