import Mathlib.Data.Nat.Digits.Defs
import GemCore.Lib.Result
import GemCore.Lib.Bytes
import GemCore.Primitives.SignerError

/-!
# XRPL transactions and their binary form

The serialiser of the XRP signer (`gem_xrp/src/signer/transaction.rs`, `amount.rs`). Each
`append_*` function of the source is modelled by the bytes it appends. The decimal library
behind issued amounts is third-party code: `DecimalLib`.

## Main definitions

* `XrpAmount`, `XrpTransaction` — the data that is serialised.
* `IssuedAmount.encodedValue` — the 64 bits of an issued amount.
* `XrpTransaction.encode` — `XrpTransaction::encode`.
-/

namespace GemCore.Xrp

open Lib

/-! ## Decimals -/

/-- `BigDecimal`: an integer and the number of its decimal places. -/
structure BigDecimal where
  digits : ℤ
  scale : ℤ
  deriving DecidableEq

/-- The number a decimal denotes. -/
def BigDecimal.value (decimal : BigDecimal) : ℚ := decimal.digits * (10 : ℚ) ^ (-decimal.scale)

/-- The third-party decimal library: `normalized` drops the trailing zeros of the integer and
keeps the number. -/
structure DecimalLib where
  normalized : BigDecimal → BigDecimal
  value_normalized : ∀ decimal, (normalized decimal).value = decimal.value
  not_dvd_normalized : ∀ decimal, decimal.digits ≠ 0 → ¬(10 : ℤ) ∣ (normalized decimal).digits

/-! ## Amounts -/

/-- `IssuedAmount`. -/
structure IssuedAmount where
  value : BigDecimal
  currency : FixedBytes 20
  issuer : FixedBytes 20
  deriving DecidableEq

/-- `XrpAmount`. -/
inductive XrpAmount where
  | native (amount : UInt64)
  | issued (amount : IssuedAmount)

/-- `POS_SIGN_BIT_MASK`. -/
def posSignBitMask : ℕ := 0x4000000000000000

/-- `ISSUED_CURRENCY_ZERO`. -/
def issuedCurrencyZero : ℕ := 0x8000000000000000

/-- `MIN_MANTISSA`. -/
def minMantissa : ℕ := 1000000000000000

/-- `MAX_MANTISSA`. -/
def maxMantissa : ℕ := 9999999999999999

/-- `MIN_IOU_EXPONENT`. -/
def minIouExponent : ℤ := -96

/-- `MAX_IOU_EXPONENT`. -/
def maxIouExponent : ℤ := 80

/-- `value as i32` of a wider integer: the low 32 bits, read with a sign. -/
def asI32 (value : ℤ) : ℤ := value.bmod (2 ^ 32)

/-- `-(scale as i32)`, which wraps at `i32::MIN`. -/
def exponentOfScale (scale : ℤ) : ℤ := asI32 (-asI32 scale)

variable (lib : DecimalLib)

/-- `issued_amount_precision`: the number of decimal digits. -/
def issuedAmountPrecision (value : BigDecimal) : ℕ :=
  (Nat.digits 10 (lib.normalized value).digits.natAbs).length

/-- `issued_amount_exponent`. -/
def issuedAmountExponent (value : BigDecimal) : ℤ := exponentOfScale (lib.normalized value).scale

/-- `validate_issued_value`. -/
def validateIssuedValue (value : BigDecimal) : Except SignerError Unit :=
  if value.digits = 0 then .ok ()
  else if 16 < issuedAmountPrecision lib value then
    .error (.invalidInput "XRP token amount precision is too large")
  else if ¬(minIouExponent ≤ issuedAmountExponent lib value ∧
      issuedAmountExponent lib value ≤ maxIouExponent) then
    .error (.invalidInput "XRP token amount exponent is out of range")
  else .ok ()

/-- The first loop of `encoded_value`: the mantissa is multiplied up to 16 digits while the
exponent stays in range. The fuel is the distance of the exponent from its minimum. -/
def scaleUp : ℕ → ℕ → ℤ → ℕ × ℤ
  | 0, mantissa, exponent => (mantissa, exponent)
  | fuel + 1, mantissa, exponent =>
    if mantissa < minMantissa ∧ minIouExponent < exponent then
      scaleUp fuel (mantissa * 10) (exponent - 1)
    else (mantissa, exponent)

/-- The second loop of `encoded_value`: the mantissa is cut down to 16 digits. The fuel is the
distance of the exponent from its maximum. -/
def scaleDown : ℕ → ℕ → ℤ → Except SignerError (ℕ × ℤ)
  | 0, mantissa, exponent =>
    if maxMantissa < mantissa then .error (.invalidInput "XRP token amount is too large")
    else .ok (mantissa, exponent)
  | fuel + 1, mantissa, exponent =>
    if maxMantissa < mantissa then
      if maxIouExponent ≤ exponent then .error (.invalidInput "XRP token amount is too large")
      else scaleDown fuel (mantissa / 10) (exponent + 1)
    else .ok (mantissa, exponent)

/-- The end of `encoded_value`: too small a value becomes zero, too large a one is an error,
and sign, exponent and mantissa share the 64 bits. -/
def packIssued (isPositive : Bool) (mantissa : ℕ) (exponent : ℤ) : Except SignerError ℕ :=
  if exponent < minIouExponent ∨ mantissa < minMantissa then .ok issuedCurrencyZero
  else if maxIouExponent < exponent ∨ maxMantissa < mantissa then
    .error (.invalidInput "XRP token amount is too large")
  else
    let sign := if isPositive then issuedCurrencyZero ||| posSignBitMask else issuedCurrencyZero
    .ok ((sign ||| (exponent + 97).toNat <<< 54) ||| mantissa)

/-- `IssuedAmount::encoded_value`. -/
def IssuedAmount.encodedValue (amount : IssuedAmount) : Except SignerError ℕ := do
  validateIssuedValue lib amount.value
  if amount.value.digits = 0 then .ok issuedCurrencyZero
  else
    let value := lib.normalized amount.value
    let exponent := exponentOfScale value.scale
    if 2 ^ 128 ≤ value.digits.natAbs then .error (.invalidInput "invalid XRP token amount")
    else do
      let up := scaleUp (exponent - minIouExponent).toNat value.digits.natAbs exponent
      let down ← scaleDown (maxIouExponent - up.2).toNat up.1 up.2
      packIssued (0 < value.digits) down.1 down.2

/-- `XrpAmount::encode`. -/
def XrpAmount.encode : XrpAmount → Except SignerError (List UInt8)
  | native amount => .ok (beBytes 8 (amount.toNat ||| posSignBitMask))
  | issued amount => do
    let value ← amount.encodedValue lib
    .ok (beBytes 8 value ++ amount.currency.val ++ amount.issuer.val)

/-! ## Transactions -/

/-- `XrpPaymentMemo`. -/
inductive XrpPaymentMemo where
  | none
  | destinationTag (tag : UInt32)
  | memo (data : List UInt8)

/-- `XrpOperation`. -/
inductive XrpOperation where
  | payment (amount : XrpAmount) (destination : FixedBytes 20) (memo : XrpPaymentMemo)
  | trustSet (limitAmount : XrpAmount)

/-- `XrpTransaction`. -/
structure XrpTransaction where
  sequence : UInt32
  lastLedgerSequence : UInt32
  fee : UInt64
  signingPubKey : List UInt8
  account : FixedBytes 20
  operation : XrpOperation

/-- `append_header`: one byte when both codes are below 16, an escape for each one that is
not. -/
def appendHeader (typeCode fieldCode : UInt8) : List UInt8 :=
  if typeCode < 16 then
    if fieldCode < 16 then [(typeCode <<< 4) ||| fieldCode] else [typeCode <<< 4, fieldCode]
  else if fieldCode < 16 then [fieldCode, typeCode] else [0, typeCode, fieldCode]

/-- `append_variable_length`. -/
def appendVariableLength (length : ℕ) : Except SignerError (List UInt8) :=
  if length ≤ 192 then .ok [UInt8.ofNat length]
  else if length < 12481 then
    let length := length - 193
    .ok [UInt8.ofNat ((length >>> 8) + 193), UInt8.ofNat (length &&& 0xff)]
  else if length ≤ 918744 then
    let length := length - 12481
    .ok [UInt8.ofNat ((length >>> 16) + 241), UInt8.ofNat ((length >>> 8) &&& 0xff),
      UInt8.ofNat (length &&& 0xff)]
  else .error (.invalidInput "XRP field is too large")

/-- `append_u16`. -/
def appendU16 (field : UInt8) (value : UInt16) : List UInt8 :=
  appendHeader 1 field ++ beBytes 2 value.toNat

/-- `append_u32`. -/
def appendU32 (field : UInt8) (value : UInt32) : List UInt8 :=
  appendHeader 2 field ++ beBytes 4 value.toNat

/-- `append_amount`. -/
def appendAmount (field : UInt8) (amount : XrpAmount) : Except SignerError (List UInt8) := do
  let bytes ← amount.encode lib
  .ok (appendHeader 6 field ++ bytes)

/-- A length-prefixed value: `append_blob` and `append_address` differ in the type code
only. -/
def appendPrefixed (typeCode field : UInt8) (value : List UInt8) :
    Except SignerError (List UInt8) := do
  let length ← appendVariableLength value.length
  .ok (appendHeader typeCode field ++ length ++ value)

/-- `append_blob`. -/
def appendBlob (field : UInt8) (value : List UInt8) : Except SignerError (List UInt8) :=
  appendPrefixed 7 field value

/-- `append_address`. -/
def appendAddress (field : UInt8) (value : FixedBytes 20) : Except SignerError (List UInt8) :=
  appendPrefixed 8 field value.val

/-- `append_memo`: an array of one object of one blob. -/
def appendMemo : XrpPaymentMemo → Except SignerError (List UInt8)
  | .memo data => do
    let blob ← appendBlob 13 data
    .ok (appendHeader 15 9 ++ appendHeader 14 10 ++ blob ++ [0xe1] ++ [0xf1])
  | .none | .destinationTag _ => .ok []

/-- `XrpTransaction::transaction_type`. -/
def XrpTransaction.transactionType (transaction : XrpTransaction) : UInt16 :=
  match transaction.operation with
  | .payment .. => 0
  | .trustSet _ => 20

/-- The destination tag of a payment that has one. -/
def XrpTransaction.destinationTagBytes (transaction : XrpTransaction) : List UInt8 :=
  match transaction.operation with
  | .payment _ _ (.destinationTag tag) => appendU32 14 tag
  | _ => []

/-- The amount of a payment or the limit of a trust line. -/
def XrpTransaction.amountBytes (transaction : XrpTransaction) : Except SignerError (List UInt8) :=
  match transaction.operation with
  | .payment amount _ _ => appendAmount lib 1 amount
  | .trustSet limitAmount => appendAmount lib 3 limitAmount

/-- The signature, once there is one. -/
def signatureBytes : Option (List UInt8) → Except SignerError (List UInt8)
  | some signature => appendBlob 4 signature
  | none => .ok []

/-- Destination and memo of a payment. -/
def XrpTransaction.destinationBytes (transaction : XrpTransaction) :
    Except SignerError (List UInt8) :=
  match transaction.operation with
  | .payment _ destination memo => do
    let address ← appendAddress 3 destination
    let memo ← appendMemo memo
    .ok (address ++ memo)
  | .trustSet _ => .ok []

/-- `XrpTransaction::encode`. -/
def XrpTransaction.encode (transaction : XrpTransaction) (signature : Option (List UInt8)) :
    Except SignerError (List UInt8) := do
  let amount ← transaction.amountBytes lib
  let fee ← appendAmount lib 8 (.native transaction.fee)
  let signingPubKey ← appendBlob 3 transaction.signingPubKey
  let signature ← signatureBytes signature
  let account ← appendAddress 1 transaction.account
  let destination ← transaction.destinationBytes
  .ok (appendU16 2 transaction.transactionType ++ appendU32 2 0 ++
    appendU32 4 transaction.sequence ++ transaction.destinationTagBytes ++
    appendU32 27 transaction.lastLedgerSequence ++ amount ++ fee ++ signingPubKey ++
    signature ++ account ++ destination)

end GemCore.Xrp
