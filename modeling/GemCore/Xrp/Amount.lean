import Mathlib.Data.Nat.Digits.Lemmas
import GemCore.Primitives.Hex
import GemCore.Xrp.RoundTrip

/-!
# When an issued amount is encoded exactly

An issued amount is built from a text (`IssuedAmount::new` in `gem_xrp/src/signer/amount.rs`) and
validated when it is encoded. The validation looks at the exponent of the last digit, read in 32
bits, and at the number of digits, not at the exponent the number has with a mantissa of 16
digits. This module says for exactly which values the encoded bits are the number of the text.

## Main definitions

* `AmountLib` — the third-party functions.
* `IssuedAmount.new` — `IssuedAmount::new`.
* `IssuedAmount.Exact` — the encoded amount is a number, or there is none.
* `EncodesExactly` — the condition on a decimal.

## Main results

* `IssuedAmount.encodedValue_of_room`, `encodedValue_of_no_room` — what a validated decimal is
  encoded to.
* `IssuedAmount.new_exact_iff` — the amount of a text is encoded exactly iff its decimal satisfies
  `EncodesExactly`.
-/

namespace GemCore.Xrp

open Lib

/-! ## Building an amount -/

/-- The third-party functions an amount is built with. -/
structure AmountLib extends DecimalLib where
  /-- `BigDecimal::from_str`. -/
  fromStr : String → Option BigDecimal
  /-- `bs58::decode` with the Ripple alphabet, the checksum and the version 0. -/
  decodeBase58Check : String → Option (List UInt8)

/-- `currency_code_bytes`: 40 hex digits, a code of three letters at offset 12, or a text that is
filled up with zeros. -/
def currencyCodeBytes (value : String) : Except SignerError (FixedBytes 20) :=
  let bytes := value.toUTF8.data.toList
  if bytes.length = 40 ∨ "0x".toList.isPrefixOf value.toList then
    match decodeHexArray 20 value with
    | some code => .ok code
    | none => .error (.invalidInput "invalid XRP currency code")
  else if h : 20 < bytes.length then .error (.invalidInput "XRP currency symbol is too long")
  else if h3 : bytes.length = 3 then
    .ok ⟨List.replicate 12 0 ++ bytes ++ List.replicate 5 0, by simp [h3]⟩
  else .ok ⟨bytes ++ List.replicate (20 - bytes.length) 0, by
    rw [List.length_append, List.length_replicate]
    omega⟩

variable (lib : AmountLib)

/-- `XrpAddress::parse`. -/
def parseAddress (value : String) : Except SignerError (FixedBytes 20) :=
  match lib.decodeBase58Check value with
  | none => .error (.invalidInput "invalid XRP classic address")
  | some decoded =>
    if h : decoded.length = 21 then .ok ⟨decoded.drop 1, by rw [List.length_drop, h]⟩
    else .error (.invalidInput "invalid XRP classic address")

/-- `IssuedAmount::new`. -/
def IssuedAmount.new (value currency issuer : String) : Except SignerError IssuedAmount := do
  let value ← okOr (lib.fromStr value) (.invalidInput "invalid XRP token amount")
  let currency ← currencyCodeBytes currency
  let issuer ← parseAddress lib issuer
  .ok ⟨value, currency, issuer⟩

/-! ## Scaling to 16 digits -/

/-- A number of at most 16 digits is scaled to 16 digits. -/
lemma exists_scale_of_precision {m : ℕ} (hm : m ≠ 0) (h : (Nat.digits 10 m).length ≤ 16) :
    ∃ k : ℕ, minMantissa ≤ m * 10 ^ k ∧ m * 10 ^ k ≤ maxMantissa := by
  have hpos : 0 < (Nat.digits 10 m).length :=
    List.length_pos_iff.mpr (Nat.digits_ne_nil_iff_ne_zero.mpr hm)
  have hlow : 10 ^ ((Nat.digits 10 m).length - 1) ≤ m := by
    rw [← Nat.lt_digits_length_iff (by norm_num)]
    omega
  have hhigh : m < 10 ^ (Nat.digits 10 m).length := Nat.lt_base_pow_length_digits (by norm_num)
  refine ⟨16 - (Nat.digits 10 m).length, ?_, ?_⟩
  · calc minMantissa = 10 ^ ((Nat.digits 10 m).length - 1) * 10 ^ (16 - (Nat.digits 10 m).length) := by
          rw [← pow_add]
          have : (Nat.digits 10 m).length - 1 + (16 - (Nat.digits 10 m).length) = 15 := by omega
          rw [this]
          rfl
      _ ≤ m * 10 ^ (16 - (Nat.digits 10 m).length) := Nat.mul_le_mul_right _ hlow
  · have hlt : m * 10 ^ (16 - (Nat.digits 10 m).length) < 10 ^ 16 := calc
      m * 10 ^ (16 - (Nat.digits 10 m).length)
        < 10 ^ (Nat.digits 10 m).length * 10 ^ (16 - (Nat.digits 10 m).length) :=
          Nat.mul_lt_mul_of_pos_right hhigh (Nat.pow_pos (by norm_num))
      _ = 10 ^ 16 := by
          rw [← pow_add]
          congr 1
          omega
    unfold maxMantissa
    omega

/-- The first loop stops at the smallest exponent when the mantissa is still too small there. -/
theorem scaleUp_exhausted (j m : ℕ) (h : m * 10 ^ j < minMantissa) :
    scaleUp j m (minIouExponent + j) = (m * 10 ^ j, minIouExponent) := by
  induction j generalizing m with
  | zero => simp [scaleUp]
  | succ j ih =>
    have hpow : m * 10 ^ (j + 1) = m * 10 * 10 ^ j := by ring
    have hle : m * 1 ≤ m * 10 ^ (j + 1) := Nat.mul_le_mul_left _ (Nat.one_le_pow _ _ (by norm_num))
    have hexponent : minIouExponent + ((j + 1 : ℕ) : ℤ) - 1 = minIouExponent + j := by
      push_cast
      omega
    unfold scaleUp
    rw [if_pos ⟨by omega, by push_cast; omega⟩, hexponent, ih (m * 10) (hpow ▸ h), hpow]

section Encoding

variable {lib} {amount : IssuedAmount}

/-- **A valid decimal without room for 16 digits** is encoded to zero. -/
theorem IssuedAmount.encodedValue_of_no_room (hzero : amount.value.digits ≠ 0)
    (hvalid : validateIssuedValue lib.toDecimalLib amount.value = .ok ()) {k : ℕ}
    (hmax : (lib.normalized amount.value).digits.natAbs * 10 ^ k ≤ maxMantissa)
    (hroom : issuedAmountExponent lib.toDecimalLib amount.value - k < minIouExponent) :
    amount.encodedValue lib.toDecimalLib = .ok issuedCurrencyZero := by
  obtain ⟨-, hlow, hhigh⟩ := (validateIssuedValue_eq_ok_iff lib.toDecimalLib hzero).mp hvalid
  obtain ⟨j, hj⟩ := Int.eq_ofNat_of_zero_le (sub_nonneg.mpr hlow)
  have hsmall : (lib.normalized amount.value).digits.natAbs * 10 ^ j < minMantissa := by
    have hpow : 10 ^ (j + 1) ≤ 10 ^ k := Nat.pow_le_pow_right (by norm_num) (by omega)
    have hle := Nat.mul_le_mul_left (lib.normalized amount.value).digits.natAbs hpow
    rw [pow_succ, ← mul_assoc] at hle
    unfold maxMantissa at hmax
    unfold minMantissa
    omega
  have hexponent : issuedAmountExponent lib.toDecimalLib amount.value = minIouExponent + j := by
    omega
  have hdown : (lib.normalized amount.value).digits.natAbs * 10 ^ j ≤ maxMantissa := by
    unfold minMantissa at hsmall
    unfold maxMantissa
    omega
  rw [encodedValue_eq lib.toDecimalLib hzero hvalid]
  dsimp only
  rw [hj, Int.toNat_natCast, hexponent, scaleUp_exhausted j _ hsmall, scaleDown_eq _ _ hdown,
    ok_bind, packIssued, if_pos (Or.inr hsmall)]

end Encoding

/-! ## Exact amounts -/

/-- The encoded amount is the number: its first 8 bytes are not an XRP amount and are read as the
number, in the one form it has; a number without such a form is rejected. -/
def IssuedAmount.Exact (amount : IssuedAmount) (number : ℚ) : Prop :=
  (∀ bytes, (XrpAmount.issued amount).encode lib.toDecimalLib = .ok bytes →
    2 ^ 63 ≤ ofBe (bytes.take 8) ∧ decodeIssued (ofBe (bytes.take 8)) = some number ∧
      bytes.drop 8 = amount.currency.val ++ amount.issuer.val) ∧
  (¬Representable number →
    ∃ error, (XrpAmount.issued amount).encode lib.toDecimalLib = .error error)

/-- **The condition on a decimal**: it is zero, or it is turned down by `validate_issued_value`, or
without its trailing zeros it has a scale from -80 to 96, before that is read in 32 bits, and its
magnitude is at least that of the smallest mantissa with the smallest exponent. -/
def EncodesExactly (value : BigDecimal) : Prop :=
  value.digits = 0 ∨ validateIssuedValue lib.toDecimalLib value ≠ .ok () ∨
    -80 ≤ (lib.normalized value).scale ∧ (lib.normalized value).scale ≤ 96 ∧
      (10 : ℚ) ^ (-81 : ℤ) ≤ |value.value|

section Exact

variable {lib} {amount : IssuedAmount}

/-- What is read from an amount with the given encoded value. -/
lemma IssuedAmount.read_encode {bits : ℕ} (hbits : bits < 2 ^ 64)
    (h : amount.encodedValue lib.toDecimalLib = .ok bits) :
    ∃ bytes, (XrpAmount.issued amount).encode lib.toDecimalLib = .ok bytes ∧
      ofBe (bytes.take 8) = bits ∧
      bytes.drop 8 = amount.currency.val ++ amount.issuer.val := by
  have hlength : (beBytes 8 bits).length = 8 := length_beBytes _ _
  refine ⟨beBytes 8 bits ++ amount.currency.val ++ amount.issuer.val, ?_, ?_, ?_⟩
  · rw [XrpAmount.encode, h]
    rfl
  · rw [List.append_assoc, List.take_left' hlength, ofBe_beBytes]
    exact Nat.mod_eq_of_lt hbits
  · rw [List.append_assoc, List.drop_left' hlength]

/-- An amount is exact when its encoded value is read as the number. -/
lemma IssuedAmount.exact_of_encodedValue {number : ℚ}
    (h : ∀ bits, amount.encodedValue lib.toDecimalLib = .ok bits →
      2 ^ 63 ≤ bits ∧ bits < 2 ^ 64 ∧ decodeIssued bits = some number) :
    amount.Exact lib number := by
  cases hvalue : amount.encodedValue lib.toDecimalLib with
  | error e =>
    have hencode : (XrpAmount.issued amount).encode lib.toDecimalLib = .error e := by
      rw [XrpAmount.encode, hvalue]
      rfl
    refine ⟨fun bytes hbytes => ?_, fun _ => ⟨e, hencode⟩⟩
    rw [hencode] at hbytes
    cases hbytes
  | ok bits =>
    obtain ⟨hlow, hhigh, hdecode⟩ := h bits hvalue
    obtain ⟨bytes, hbytes, hread, hdrop⟩ := read_encode hhigh hvalue
    refine ⟨fun bytes' hbytes' => ?_, fun hnot => absurd (decodeIssued_representable hdecode) hnot⟩
    obtain rfl := Except.ok.inj (hbytes.symm.trans hbytes')
    rw [hread]
    exact ⟨hlow, hdecode, hdrop⟩

lemma BigDecimal.value_ne_zero {value : BigDecimal} (h : value.digits ≠ 0) : value.value ≠ 0 :=
  mul_ne_zero (Int.cast_ne_zero.mpr h) (zpow_ne_zero _ (by norm_num))

/-- The magnitude of a decimal, with its digits scaled up. -/
lemma abs_value_eq (value : BigDecimal) (k : ℕ) :
    |value.value| = (((lib.normalized value).digits.natAbs * 10 ^ k : ℕ) : ℚ) *
      10 ^ (-(lib.normalized value).scale - k) := by
  have hnonneg : (0 : ℚ) ≤ (((lib.normalized value).digits.natAbs * 10 ^ k : ℕ) : ℚ) *
      10 ^ (-(lib.normalized value).scale - k) :=
    mul_nonneg (Nat.cast_nonneg _) (zpow_nonneg (by norm_num) _)
  rw [← lib.value_normalized, BigDecimal.value, ← signed_scaled _ k]
  split_ifs
  · exact abs_of_nonneg hnonneg
  · rw [abs_neg, abs_of_nonneg hnonneg]

/-- With a mantissa of 16 digits, the exponent is in range exactly for magnitudes from `10^-81`. -/
theorem room_iff {value : BigDecimal} {k : ℕ}
    (hmin : minMantissa ≤ (lib.normalized value).digits.natAbs * 10 ^ k)
    (hmax : (lib.normalized value).digits.natAbs * 10 ^ k ≤ maxMantissa) :
    minIouExponent ≤ -(lib.normalized value).scale - k ↔ (10 : ℚ) ^ (-81 : ℤ) ≤ |value.value| := by
  rw [@abs_value_eq lib value k]
  generalize (lib.normalized value).digits.natAbs * 10 ^ k = mantissa at hmin hmax
  generalize -(lib.normalized value).scale - (k : ℤ) = exponent
  have hten : (0 : ℚ) < 10 := by norm_num
  constructor
  · intro h
    calc (10 : ℚ) ^ (-81 : ℤ) = (10 : ℚ) ^ (15 : ℕ) * 10 ^ (-96 : ℤ) := by norm_num
      _ ≤ mantissa * 10 ^ exponent := by
        refine mul_le_mul (by exact_mod_cast hmin) ?_ (zpow_nonneg hten.le _) (Nat.cast_nonneg _)
        exact zpow_le_zpow_right₀ (by norm_num) h
  · intro h
    by_contra hlt
    have hsmall : (mantissa : ℚ) * 10 ^ exponent < 10 ^ (-81 : ℤ) := by
      calc (mantissa : ℚ) * 10 ^ exponent < (10 : ℚ) ^ (16 : ℕ) * 10 ^ (-97 : ℤ) := by
            refine mul_lt_mul ?_ ?_ (zpow_pos hten _) (by positivity)
            · have : mantissa < 10 ^ 16 := by
                unfold maxMantissa at hmax
                omega
              exact_mod_cast this
            · refine zpow_le_zpow_right₀ (by norm_num) ?_
              unfold minIouExponent at hlt
              omega
        _ = 10 ^ (-81 : ℤ) := by norm_num
    exact absurd h (not_le.mpr hsmall)

/-- **An issued amount is encoded exactly** iff its decimal satisfies the condition.

**Proof sketch.** A valid decimal has at most 16 digits and is scaled to 16. With room for that it
is encoded to its digits and its exponent in 32 bits, which is its number iff the scale was within
32 bits; without room it is encoded to zero, which it is not. -/
theorem IssuedAmount.exact_iff_fits : amount.Exact lib amount.value.value ↔
    EncodesExactly lib amount.value := by
  by_cases hzero : amount.value.digits = 0
  · refine iff_of_true (exact_of_encodedValue fun bits hbits => ?_) (.inl hzero)
    refine decodeIssued_encodedValue lib.toDecimalLib (.inl ?_) hbits
    rw [BigDecimal.value, hzero, Int.cast_zero, zero_mul]
  by_cases hvalid : validateIssuedValue lib.toDecimalLib amount.value = .ok ()
  swap
  · refine iff_of_true (exact_of_encodedValue fun bits hbits => ?_) (.inr (.inl hvalid))
    exact absurd (check_bind_eq_ok_iff.mp hbits).1 hvalid
  have hdigits : (lib.normalized amount.value).digits.natAbs ≠ 0 := by
    intro h0
    exact lib.not_dvd_normalized amount.value hzero ⟨0, by omega⟩
  obtain ⟨hprecision, hlow, hhigh⟩ := (validateIssuedValue_eq_ok_iff lib.toDecimalLib hzero).mp hvalid
  obtain ⟨k, hmin, hmax⟩ := exists_scale_of_precision hdigits hprecision
  -- the condition is that the exponent is the one of the scale and that there is room
  have hcondition : EncodesExactly lib amount.value ↔
      issuedAmountExponent lib.toDecimalLib amount.value = -(lib.normalized amount.value).scale ∧
        minIouExponent ≤ -(lib.normalized amount.value).scale - k := by
    rw [room_iff hmin hmax]
    constructor
    · rintro (h | h | ⟨hlow, hhigh, hsize⟩)
      · exact absurd h hzero
      · exact absurd hvalid h
      · exact ⟨exponentOfScale_eq (by omega) (by omega), hsize⟩
    · rintro ⟨hexponent, hsize⟩
      unfold minIouExponent at hlow
      unfold maxIouExponent at hhigh
      exact .inr (.inr ⟨by omega, by omega, hsize⟩)
  have hvalue : amount.value.value =
      (lib.normalized amount.value).digits * (10 : ℚ) ^ (-(lib.normalized amount.value).scale) :=
    (lib.value_normalized amount.value).symm
  rw [hcondition]
  constructor
  · intro hexact
    by_cases hroom : minIouExponent ≤ issuedAmountExponent lib.toDecimalLib amount.value - k
    · obtain ⟨bits, hbits, -, hsize, hdecode⟩ :=
        encodedValue_of_room lib.toDecimalLib hzero hvalid hmin hmax hroom
      obtain ⟨bytes, hbytes, hread, -⟩ := read_encode hsize hbits
      obtain ⟨-, hnumber, -⟩ := hexact.1 bytes hbytes
      rw [hread, hdecode, hvalue] at hnumber
      have hpow := mul_left_cancel₀ (Int.cast_ne_zero.mpr (Int.natAbs_ne_zero.mp hdigits))
        (Option.some.inj hnumber)
      have hexponent := zpow_right_injective₀ (by norm_num) (by norm_num) hpow
      exact ⟨hexponent, hexponent ▸ hroom⟩
    · obtain ⟨bytes, hbytes, hread, -⟩ := read_encode (by decide)
        (encodedValue_of_no_room hzero hvalid hmax (not_le.mp hroom))
      obtain ⟨-, hnumber, -⟩ := hexact.1 bytes hbytes
      have hdecode : decodeIssued issuedCurrencyZero = some 0 := rfl
      rw [hread, hdecode] at hnumber
      exact absurd (Option.some.inj hnumber).symm (BigDecimal.value_ne_zero hzero)
  · rintro ⟨hexponent, hroom⟩
    obtain ⟨bits, hbits, hlo, hhi, hdecode⟩ :=
      encodedValue_of_room lib.toDecimalLib hzero hvalid hmin hmax (hexponent ▸ hroom)
    refine exact_of_encodedValue fun bits' hbits' => ?_
    obtain rfl := Except.ok.inj (hbits.symm.trans hbits')
    rw [hdecode, hvalue, hexponent]
    exact ⟨hlo, hhi, rfl⟩

/-- **The amount of a text** is encoded as the number of the text iff its decimal satisfies the
condition. -/
theorem IssuedAmount.new_exact_iff (value currency issuer : String)
    (h : IssuedAmount.new lib value currency issuer = .ok amount) :
    ∃ decimal, lib.fromStr value = some decimal ∧
      (amount.Exact lib decimal.value ↔ EncodesExactly lib decimal) := by
  unfold IssuedAmount.new at h
  rw [bind_eq_ok_iff] at h
  obtain ⟨decimal, hdecimal, h⟩ := h
  rw [bind_eq_ok_iff] at h
  obtain ⟨currency, -, h⟩ := h
  rw [bind_eq_ok_iff] at h
  obtain ⟨issuer, -, h⟩ := h
  obtain rfl := Except.ok.inj h
  exact ⟨decimal, okOr_eq_ok_iff.mp hdecimal, exact_iff_fits⟩

end Exact

/-! ## An exact amount and two that are not -/

/-- The account `rf1BiGeXwwQoi8Z2ueFYTEXSwuJYfV2Jpn`. -/
def sampleIssuer : FixedBytes 20 :=
  ⟨[0x4b, 0x4e, 0x9c, 0x06, 0xf2, 0x42, 0x96, 0x07, 0x4f, 0x7b, 0xc4, 0x8f, 0x92, 0xa9, 0x79, 0x16,
    0xc6, 0xdc, 0x5e, 0xa9], rfl⟩

/-- The library at the texts of the samples. -/
def sampleAmountLib : AmountLib where
  toDecimalLib := referenceLib
  fromStr text :=
    if text = "29.3e-1" then some ⟨293, 2⟩
    else if text = "1e-90" then some ⟨1, 90⟩
    else if text = "1e-4294967296" then some ⟨1, 4294967296⟩
    else none
  decodeBase58Check text :=
    if text = "rf1BiGeXwwQoi8Z2ueFYTEXSwuJYfV2Jpn" then some (0 :: sampleIssuer.val) else none

/-- An amount of the sample issuer in US dollars. -/
def sampleAmount (value : BigDecimal) : IssuedAmount where
  value := value
  currency := ⟨List.replicate 12 0 ++ [0x55, 0x53, 0x44] ++ List.replicate 5 0, rfl⟩
  issuer := sampleIssuer

theorem IssuedAmount.new_exact_iff_sample :
    IssuedAmount.new sampleAmountLib "29.3e-1" "USD" "rf1BiGeXwwQoi8Z2ueFYTEXSwuJYfV2Jpn" =
        .ok (sampleAmount ⟨293, 2⟩) ∧
      ∃ decimal, sampleAmountLib.fromStr "29.3e-1" = some decimal ∧
        ((sampleAmount ⟨293, 2⟩).Exact sampleAmountLib decimal.value ↔
          EncodesExactly sampleAmountLib decimal) := by
  have h : IssuedAmount.new sampleAmountLib "29.3e-1" "USD" "rf1BiGeXwwQoi8Z2ueFYTEXSwuJYfV2Jpn" =
      .ok (sampleAmount ⟨293, 2⟩) := by decide +kernel
  exact ⟨h, IssuedAmount.new_exact_iff _ _ _ h⟩

/-- **Two amounts that are encoded as other numbers**: `10^-90` as zero, and `10^-4294967296`, whose
scale is zero in 32 bits, as one. -/
theorem IssuedAmount.new_not_exact :
    (IssuedAmount.new sampleAmountLib "1e-90" "USD" "rf1BiGeXwwQoi8Z2ueFYTEXSwuJYfV2Jpn" =
        .ok (sampleAmount ⟨1, 90⟩) ∧
      (sampleAmount ⟨1, 90⟩).encodedValue referenceLib = .ok issuedCurrencyZero ∧
      ¬(sampleAmount ⟨1, 90⟩).Exact sampleAmountLib (⟨1, 90⟩ : BigDecimal).value) ∧
    IssuedAmount.new sampleAmountLib "1e-4294967296" "USD" "rf1BiGeXwwQoi8Z2ueFYTEXSwuJYfV2Jpn" =
        .ok (sampleAmount ⟨1, 4294967296⟩) ∧
      (sampleAmount ⟨1, 4294967296⟩).encodedValue referenceLib =
        (sampleAmount ⟨1, 0⟩).encodedValue referenceLib ∧
      ¬(sampleAmount ⟨1, 4294967296⟩).Exact sampleAmountLib
        (⟨1, 4294967296⟩ : BigDecimal).value := by
  refine ⟨⟨by decide +kernel, by decide +kernel, ?_⟩, by decide +kernel, by decide +kernel, ?_⟩
  · intro hexact
    rcases IssuedAmount.exact_iff_fits.mp hexact with h | h | ⟨-, -, h⟩
    · exact absurd h (by decide)
    · exact h (by decide +kernel)
    · norm_num [BigDecimal.value, sampleAmount] at h
  · intro hexact
    rcases IssuedAmount.exact_iff_fits.mp hexact with h | h | ⟨-, h, -⟩
    · exact absurd h (by decide)
    · exact h (by decide +kernel)
    · exact absurd h (by decide +kernel)

end GemCore.Xrp
