import GemCore.Lib.Numeral
import GemCore.Xrp.Transaction
import Mathlib.Data.Rat.Floor

/-!
# Big numbers

Amounts are texts: integers in the smallest unit of an asset, and decimals in the unit that is
shown (`number_formatter/src/big_number_formatter.rs`). The decimal library in between is third
party.

## Main definitions

* `NumberLib` — the decimal library, and what it documents.
* `bigDecimalValue` — the decimal of an integer in the smallest unit.
* `valueFromAmountTruncated`, `valueFromAmountExact` — the integer of a decimal.

## Main results

* `bigDecimalValue_spec` — the decimal is exact.
* `valueFromAmountExact_spec`, `valueFromAmountTruncated_spec` — the integer is exact, or rounded
  down.
-/

namespace GemCore.NumberFormatter

open Lib.Decimal
open Xrp (BigDecimal DecimalLib)

/-- `NumberFormatterError`. -/
inductive NumberFormatterError where
  | invalidNumber (message : String)
  | conversionError (message : String)

/-! ## The decimal library -/

/-- The functions of the third-party decimal library that amounts are computed with. Comparisons,
signs and absolute values are those of the numbers. -/
structure NumberLib extends DecimalLib where
  /-- `BigDecimal::from_str`, or the text of its error. -/
  fromStr : String → Except String BigDecimal
  /-- `Display for BigDecimal`. -/
  toText : BigDecimal → String
  /-- The division of decimals. -/
  div : BigDecimal → BigDecimal → BigDecimal
  /-- The multiplication of decimals. -/
  mul : BigDecimal → BigDecimal → BigDecimal
  /-- `is_integer`. -/
  isInteger : BigDecimal → Bool
  /-- `with_scale`. -/
  withScale : BigDecimal → ℤ → BigDecimal
  /-- `with_scale_round` with `RoundingMode::Down`. -/
  withScaleRoundDown : BigDecimal → ℤ → BigDecimal
  /-- `BigUint::from_str`. -/
  parseBigUint : String → Option ℕ

/-- `BigDecimal::from` of an integer. -/
def fromBigInt (n : ℤ) : BigDecimal := ⟨n, 0⟩

/-- A number that is written with at most 100 digits. -/
def Short (q : ℚ) : Prop := ∃ n s : ℤ, n.natAbs < 10 ^ 100 ∧ q = n * (10 : ℚ) ^ (-s)

/-- The text of an integer. -/
def intText (n : ℤ) : List Char := sign (decide (n < 0)) ++ Nat.toDigits 10 n.natAbs

/-- What the library documents: parsing, writing and dividing by a power of ten are exact while
the result has at most 100 digits, multiplying always is; integers are written plainly, and
rounding down to a number of decimals cuts the further ones off. -/
structure NumberLib.Documented (lib : NumberLib) : Prop where
  fromStr : ∀ text q, IsNumeral text q → Short q →
    ∃ d, lib.fromStr (String.ofList text) = .ok d ∧ d.value = q
  fromStr_toText : ∀ d : BigDecimal, Short d.value →
    ∃ d', lib.fromStr (lib.toText d) = .ok d' ∧ d'.value = d.value
  toText : ∀ n : ℤ, lib.toText ⟨n, 0⟩ = String.ofList (intText n)
  div : ∀ (d : BigDecimal) (k : ℕ), Short (d.value / 10 ^ k) →
    (lib.div d (fromBigInt (10 ^ k))).value = d.value / 10 ^ k
  mul : ∀ d d' : BigDecimal, (lib.mul d d').value = d.value * d'.value
  isInteger : ∀ d : BigDecimal, lib.isInteger d = true ↔ ∃ n : ℤ, d.value = n
  withScale : ∀ (d : BigDecimal) (n : ℤ), d.value = n → lib.withScale d 0 = ⟨n, 0⟩
  withScaleRoundDown : ∀ (d : BigDecimal) (k : ℕ), 0 ≤ d.value →
    lib.withScaleRoundDown d k = ⟨⌊d.value * 10 ^ k⌋, k⟩
  parseBigUint : ∀ n : ℕ, lib.parseBigUint (String.ofList (Nat.toDigits 10 n)) = some n

/-! ## The functions -/

variable (lib : NumberLib)

/-- `big_decimal_value`. -/
def bigDecimalValue (value : String) (decimals : ℕ) : Except NumberFormatterError BigDecimal :=
  match lib.fromStr value with
  | .error e => .error (.invalidNumber e)
  | .ok decimal => .ok (lib.div decimal (fromBigInt (10 ^ decimals)))

/-- Read an amount: the error names it. -/
def parseAmount (amount : String) : Except NumberFormatterError BigDecimal :=
  match lib.fromStr amount with
  | .error _ => .error (.invalidNumber amount)
  | .ok decimal => .ok decimal

/-- `value_from_amount`. -/
def valueFromAmount (amount : String) (decimals : ℕ) : Except NumberFormatterError String := do
  let bigDecimal ← parseAmount lib amount
  let scaledValue := lib.mul bigDecimal (fromBigInt (10 ^ decimals))
  .ok (lib.toText (lib.withScale scaledValue 0))

/-- `value_from_amount_truncated`. -/
def valueFromAmountTruncated (amount : String) (decimals : ℕ) :
    Except NumberFormatterError String := do
  let bigDecimal ← parseAmount lib amount
  if bigDecimal.value < 0 then .error (.invalidNumber amount)
  else
    let truncated := lib.withScaleRoundDown bigDecimal decimals
    valueFromAmount lib (lib.toText truncated) decimals

/-- `value_from_amount_exact`. -/
def valueFromAmountExact (amount : String) (decimals : ℕ) : Except NumberFormatterError ℕ := do
  let bigDecimal ← parseAmount lib amount
  let scaledValue := lib.mul bigDecimal (fromBigInt (10 ^ decimals))
  if ¬lib.isInteger scaledValue then .error (.invalidNumber amount)
  else
    let scaledString := lib.toText (lib.withScale scaledValue 0)
    match lib.parseBigUint scaledString with
    | some value => .ok value
    | none => .error (.conversionError scaledString)

/-! ## What they compute -/

@[simp] lemma value_fromBigInt (n : ℤ) : (fromBigInt n).value = n := by
  rw [BigDecimal.value, fromBigInt, neg_zero, zpow_zero, mul_one]

/-- The number of an integer and a count of decimals. -/
lemma value_mk_natCast (n : ℤ) (k : ℕ) : (⟨n, k⟩ : BigDecimal).value = n / 10 ^ k := by
  rw [BigDecimal.value, zpow_neg, zpow_natCast, div_eq_mul_inv]

lemma short_div {n : ℤ} (h : n.natAbs < 10 ^ 100) (k : ℕ) : Short ((n : ℚ) / 10 ^ k) :=
  ⟨n, k, h, (value_mk_natCast n k).symm⟩

lemma short_int {n : ℤ} (h : n.natAbs < 10 ^ 100) : Short (n : ℚ) := by
  have hshort := short_div h 0
  rwa [pow_zero, div_one] at hshort

/-- Rounding a short number down leaves it short.

**Proof sketch.** Either no decimals are cut off, and the number stays, or the integer of the
result is at most that of the number. -/
theorem short_floor {q : ℚ} (h : Short q) (hq : 0 ≤ q) (k : ℕ) :
    Short ((⌊q * 10 ^ k⌋ : ℚ) / 10 ^ k) := by
  obtain ⟨n, s, hn, rfl⟩ := h
  have hten : (0 : ℚ) < 10 := by norm_num
  have hscaled : (n : ℚ) * 10 ^ (-s) * 10 ^ k = n * (10 : ℚ) ^ (k - s) := by
    rw [mul_assoc, ← zpow_natCast, ← zpow_add₀ hten.ne', neg_add_eq_sub]
  rcases le_total s k with hle | hge
  · obtain ⟨m, hm⟩ := Int.eq_ofNat_of_zero_le (sub_nonneg.mpr hle)
    have hint : (n : ℚ) * 10 ^ (-s) * 10 ^ k = (n * 10 ^ m : ℤ) := by
      rw [hscaled, hm, zpow_natCast]
      push_cast
      rfl
    refine ⟨n, s, hn, ?_⟩
    rw [hint, Int.floor_intCast, ← hint, mul_div_cancel_right₀ _ (by positivity)]
  · refine short_div ?_ k
    have hpow : (10 : ℚ) ^ ((k : ℤ) - s) ≤ 1 := by
      rw [← zpow_zero (10 : ℚ)]
      exact zpow_le_zpow_right₀ (by norm_num) (by omega)
    have hnonneg : 0 ≤ n := by
      have hpos : (0 : ℚ) < 10 ^ (-s) := zpow_pos hten _
      exact_mod_cast nonneg_of_mul_nonneg_left hq hpos
    have hfloor : 0 ≤ ⌊(n : ℚ) * 10 ^ (-s) * 10 ^ k⌋ := Int.floor_nonneg.mpr (by positivity)
    have hle : ⌊(n : ℚ) * 10 ^ (-s) * 10 ^ k⌋ ≤ n := by
      rw [hscaled]
      have hmul : (n : ℚ) * 10 ^ ((k : ℤ) - s) ≤ n * 1 :=
        mul_le_mul_of_nonneg_left hpow (by exact_mod_cast hnonneg)
      rw [mul_one] at hmul
      exact_mod_cast (Int.floor_le _).trans hmul
    omega

variable {lib} {text : List Char} {q : ℚ}

/-- **The decimal of an integer** in the smallest unit is exact. -/
theorem bigDecimalValue_spec (hlib : lib.Documented) {value : ℤ} (h : IsNumeral text value)
    (hvalue : value.natAbs < 10 ^ 100) (decimals : ℕ) :
    ∃ d, bigDecimalValue lib (String.ofList text) decimals = .ok d ∧
      d.value = value / 10 ^ decimals := by
  obtain ⟨d, hd, hdvalue⟩ := hlib.fromStr text value h (short_int hvalue)
  have hshort : Short (d.value / 10 ^ decimals) := by
    rw [hdvalue]
    exact short_div hvalue decimals
  refine ⟨lib.div d (fromBigInt (10 ^ decimals)), ?_, ?_⟩
  · rw [bigDecimalValue, hd]
  · rw [hlib.div d decimals hshort, hdvalue]

lemma parseAmount_eq_ok {amount : String} {d : BigDecimal} (h : lib.fromStr amount = .ok d) :
    parseAmount lib amount = .ok d := by
  rw [parseAmount, h]

/-- The integer of a decimal that has one. -/
lemma mul_withScale (hlib : lib.Documented) {d : BigDecimal} {n : ℤ} {k : ℕ}
    (h : d.value = n / 10 ^ k) :
    lib.withScale (lib.mul d (fromBigInt (10 ^ k))) 0 = ⟨n, 0⟩ := by
  refine hlib.withScale _ n ?_
  rw [hlib.mul, h, value_fromBigInt]
  push_cast
  exact div_mul_cancel₀ _ (by positivity)

/-- **The integer of a decimal** is returned exactly. -/
theorem valueFromAmountExact_spec (hlib : lib.Documented) {n k : ℕ} (hn : n < 10 ^ 100)
    (h : IsNumeral text (n / 10 ^ k)) :
    valueFromAmountExact lib (String.ofList text) k = .ok n := by
  have hcast : (n : ℚ) = ((n : ℤ) : ℚ) := (Int.cast_natCast n).symm
  rw [hcast] at h
  obtain ⟨d, hd, hvalue⟩ := hlib.fromStr text _ h (short_div (by rwa [Int.natAbs_natCast]) k)
  have hinteger : lib.isInteger (lib.mul d (fromBigInt (10 ^ k))) = true := by
    rw [hlib.isInteger]
    refine ⟨n, ?_⟩
    rw [hlib.mul, hvalue, value_fromBigInt]
    push_cast
    exact div_mul_cancel₀ _ (by positivity)
  have htext : intText n = Nat.toDigits 10 n := by
    rw [intText, decide_eq_false (by omega), Int.natAbs_natCast]
    rfl
  rw [valueFromAmountExact, parseAmount_eq_ok hd]
  show (if ¬_ then _ else _) = _
  rw [if_neg (not_not.mpr hinteger), mul_withScale hlib hvalue, hlib.toText, htext,
    hlib.parseBigUint]

/-- **The integer of a nonnegative decimal** is rounded down. -/
theorem valueFromAmountTruncated_spec (hlib : lib.Documented) (h : IsNumeral text q) (hq : 0 ≤ q)
    (hshort : Short q) (k : ℕ) :
    valueFromAmountTruncated lib (String.ofList text) k =
      .ok (String.ofList (intText ⌊q * 10 ^ k⌋)) := by
  obtain ⟨d, hd, rfl⟩ := hlib.fromStr text q h hshort
  have hcut : (lib.withScaleRoundDown d k).value = ⌊d.value * 10 ^ k⌋ / 10 ^ k := by
    rw [hlib.withScaleRoundDown d k hq, value_mk_natCast]
  have hcutShort : Short (lib.withScaleRoundDown d k).value := by
    rw [hcut]
    exact short_floor hshort hq k
  obtain ⟨d', hd', hvalue'⟩ := hlib.fromStr_toText _ hcutShort
  rw [valueFromAmountTruncated, parseAmount_eq_ok hd]
  show (if _ then _ else _) = _
  rw [if_neg (not_lt.mpr hq), valueFromAmount, parseAmount_eq_ok hd']
  show Except.ok _ = _
  rw [mul_withScale hlib (hvalue'.trans hcut), hlib.toText]

end GemCore.NumberFormatter
