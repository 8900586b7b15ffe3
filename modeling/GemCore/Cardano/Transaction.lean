import GemCore.Lib.Bytes

/-!
# Cardano transactions and their CBOR form

The CBOR encoder and the transaction serialiser of `gem_cardano` (`cbor.rs`,
`transaction.rs`). An encoder call appends to a buffer, so each is modelled by the bytes it
appends. The hash of the auxiliary data is a parameter.

## Main definitions

* `majorType` — a CBOR head: major type and argument.
* `Transaction.signedBytes` — the signed transaction.
* `headWidth` — the length of a head.

## Main results

* `length_majorType` — the length of a head depends on its argument only.
* `Transaction.length_signedBytes` — the size of a signed transaction, taken apart into a part that
  inputs, expiration and memo determine, the outputs and the fee.
-/

namespace GemCore.Cardano

open Lib

/-! ## The encoder -/

/-- `CborEncoder::major_type`. -/
def majorType (major : UInt8) (value : ℕ) : List UInt8 :=
  let head := major <<< 5
  if value ≤ 23 then [head ||| UInt8.ofNat value]
  else if value ≤ 0xff then (head ||| 24) :: beBytes 1 value
  else if value ≤ 0xffff then (head ||| 25) :: beBytes 2 value
  else if value ≤ 0xffffffff then (head ||| 26) :: beBytes 4 value
  else (head ||| 27) :: beBytes 8 value

/-- `CborEncoder::unsigned`. -/
def unsigned (value : ℕ) : List UInt8 := majorType 0 value

/-- `CborEncoder::bytes`. -/
def byteString (value : List UInt8) : List UInt8 := majorType 2 value.length ++ value

/-- The UTF-8 bytes of a text (`str::as_bytes`). -/
def utf8 (text : List Char) : List UInt8 := text.flatMap String.utf8EncodeChar

/-- `CborEncoder::text`. -/
def text (value : List Char) : List UInt8 := majorType 3 (utf8 value).length ++ utf8 value

/-- `CborEncoder::array`. -/
def array (len : ℕ) : List UInt8 := majorType 4 len

/-- `CborEncoder::map`. -/
def map (len : ℕ) : List UInt8 := majorType 5 len

/-- `CborEncoder::tag`. -/
def tag (value : ℕ) : List UInt8 := majorType 6 value

/-- `CborEncoder::true_value`. -/
def trueValue : List UInt8 := [0xf5]

/-- `CborEncoder::null`. -/
def null : List UInt8 := [0xf6]

/-- The number of bytes behind the first byte of a head. -/
def headExtra (value : ℕ) : ℕ :=
  if value ≤ 23 then 0
  else if value ≤ 0xff then 1
  else if value ≤ 0xffff then 2
  else if value ≤ 0xffffffff then 4
  else 8

/-- The length of a head. -/
def headWidth (value : ℕ) : ℕ := 1 + headExtra value

/-- The length of a head depends on its argument only. -/
@[simp] lemma length_majorType (major : UInt8) (value : ℕ) :
    (majorType major value).length = headWidth value := by
  unfold majorType headWidth headExtra
  dsimp only
  split_ifs <;> simp [Nat.add_comm]

/-- A larger argument never has a shorter head. -/
lemma headExtra_mono {a b : ℕ} (h : a ≤ b) : headExtra a ≤ headExtra b := by
  unfold headExtra
  split_ifs <;> omega

/-- A head is at most nine bytes. -/
lemma headExtra_le (a : ℕ) : headExtra a ≤ 8 := by
  unfold headExtra
  split_ifs <;> omega

/-- An argument of 17 to 32 bits takes four bytes. -/
lemma headExtra_eq_four {a : ℕ} (h : 0x10000 ≤ a) (h' : a ≤ 0xffffffff) :
    headExtra a = 4 := by
  unfold headExtra
  split_ifs <;> omega

/-! ## Transactions -/

/-- `TransactionInput`. -/
structure TransactionInput where
  transactionHash : FixedBytes 32
  outputIndex : ℕ
  deriving DecidableEq

/-- `TransactionOutput`. -/
structure TransactionOutput where
  address : List UInt8
  amount : ℕ

/-- `Transaction`. -/
structure Transaction where
  inputs : List TransactionInput
  outputs : List TransactionOutput
  fee : ℕ
  expirationBlockNumber : ℕ
  memo : Option String

/-- `chunk_memo_segments`: `segment` is the text since `start` and `size` its length in
bytes. A character that would carry the segment past 64 bytes opens the next one, unless it
is the first of its segment. -/
def chunkMemoSegments : List Char → List Char → ℕ → List (List Char)
  | [], segment, _ => if segment = [] then [] else [segment]
  | character :: rest, segment, size =>
    let len := character.utf8Size
    if segment ≠ [] ∧ size + len > 64 then
      segment :: chunkMemoSegments rest [character] len
    else chunkMemoSegments rest (segment ++ [character]) (size + len)

/-- `Transaction::auxiliary_data_bytes`: the memo, if it is not empty. -/
def Transaction.auxiliaryDataBytes (transaction : Transaction) : Option (List UInt8) :=
  match transaction.memo with
  | none => none
  | some memo =>
    if memo.toList = [] then none
    else
      let segments := chunkMemoSegments memo.toList [] 0
      some (tag 259 ++ map 1 ++ unsigned 0 ++ map 1 ++ unsigned 0 ++ map 1 ++ unsigned 6676 ++
        map 1 ++ text ['m', 'e', 'm', 'o'] ++ array segments.length ++ segments.flatMap text)

/-- One input of the body. -/
def inputBytes (input : TransactionInput) : List UInt8 :=
  array 2 ++ byteString input.transactionHash.val ++ unsigned input.outputIndex

/-- One output of the body. -/
def outputBytes (output : TransactionOutput) : List UInt8 :=
  array 2 ++ byteString output.address ++ unsigned output.amount

variable (blake2b256 : List UInt8 → FixedBytes 32)

/-- The entry of the body for the auxiliary data. -/
def auxiliaryHashBytes (auxiliaryData : Option (List UInt8)) : List UInt8 :=
  match auxiliaryData with
  | some data => unsigned 7 ++ byteString (blake2b256 data).val
  | none => []

/-- `Transaction::body_bytes`. -/
def Transaction.bodyBytes (transaction : Transaction) : List UInt8 :=
  let auxiliaryData := transaction.auxiliaryDataBytes
  map (if auxiliaryData.isSome then 5 else 4) ++
    unsigned 0 ++ array transaction.inputs.length ++ transaction.inputs.flatMap inputBytes ++
    unsigned 1 ++ array transaction.outputs.length ++
    transaction.outputs.flatMap outputBytes ++
    unsigned 2 ++ unsigned transaction.fee ++
    unsigned 3 ++ unsigned transaction.expirationBlockNumber ++
    auxiliaryHashBytes blake2b256 auxiliaryData

/-- `Transaction::signed_bytes`. -/
def Transaction.signedBytes (transaction : Transaction) (publicKey : FixedBytes 32)
    (signature : FixedBytes 64) : List UInt8 :=
  array 4 ++ transaction.bodyBytes blake2b256 ++ map 1 ++ unsigned 0 ++ array 1 ++ array 2 ++
    byteString publicKey.val ++ byteString signature.val ++ trueValue ++
    transaction.auxiliaryDataBytes.getD null

/-- `Transaction::signed_size`. -/
def Transaction.signedSize (transaction : Transaction) : ℕ :=
  (transaction.signedBytes blake2b256 (.zeros 32)
    (.zeros 64)).length

/-! ## Sizes -/

/-- The bytes of an output beside its amount. -/
def outputBase (address : List UInt8) : ℕ := 2 + headWidth address.length + address.length

lemma length_outputBytes (output : TransactionOutput) :
    (outputBytes output).length = outputBase output.address + headExtra output.amount := by
  have harray : headWidth 2 = 1 := by decide
  simp only [outputBytes, array, byteString, unsigned, List.length_append, length_majorType,
    outputBase, harray]
  unfold headWidth
  omega

/-- The size of a signed transaction that its inputs, expiration and memo determine. -/
def Transaction.baseSize (transaction : Transaction) : ℕ :=
  (Transaction.signedSize blake2b256 { transaction with outputs := [], fee := 0 }) - 1

/-- **The size of a signed transaction**: the part that does not depend on outputs and fee,
the head of the list of outputs, the outputs and the fee. It does not depend on the key or
the signature. -/
theorem Transaction.length_signedBytes (transaction : Transaction)
    (publicKey : FixedBytes 32) (signature : FixedBytes 64) :
    (transaction.signedBytes blake2b256 publicKey signature).length =
      transaction.baseSize blake2b256 + headWidth transaction.outputs.length +
        (transaction.outputs.flatMap outputBytes).length + headExtra transaction.fee := by
  have hkey := publicKey.property
  have hsig := signature.property
  have hzero : headWidth 0 = 1 := by decide
  -- the auxiliary data depends on the memo only
  have haux : Transaction.auxiliaryDataBytes { transaction with outputs := [], fee := 0 } =
      transaction.auxiliaryDataBytes := rfl
  simp only [Transaction.baseSize, Transaction.signedSize, Transaction.signedBytes,
    Transaction.bodyBytes, haux, byteString, unsigned, array, map,
    List.length_append, length_majorType, hkey, hsig, List.length_nil, List.flatMap_nil,
    FixedBytes.val_zeros, List.length_replicate, hzero]
  have hfee : headWidth transaction.fee = 1 + headExtra transaction.fee := rfl
  omega

/-- `signed_size` is the size under any key and signature. -/
lemma Transaction.length_signedBytes_eq (transaction : Transaction)
    (publicKey : FixedBytes 32) (signature : FixedBytes 64) :
    (transaction.signedBytes blake2b256 publicKey signature).length =
      transaction.signedSize blake2b256 := by
  unfold Transaction.signedSize
  rw [Transaction.length_signedBytes, Transaction.length_signedBytes]

end GemCore.Cardano
