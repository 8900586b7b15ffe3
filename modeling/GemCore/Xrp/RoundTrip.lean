import Mathlib.Data.UInt
import Mathlib.Algebra.Order.Ring.Abs
import Mathlib.Data.Nat.Bitwise
import Mathlib.Tactic.FieldSimp
import GemCore.Xrp.Transaction
import GemCore.Xrp.Codec

/-!
# Reading back serialised XRPL transactions

What `XrpTransaction::encode` writes against the reader of the format: each `append_*`
function emits a segment the reader takes for the field that was meant. The exceptions are
amounts: `encode` does not check the drop limit, and an issued amount below the smallest
mantissa becomes zero.

## Main definitions

* `XrpTransaction.fields` — the fields a transaction consists of.
* `XrpTransaction.InRange` — all its amounts are within the limits of the format.
* `Recovered` — what a reader of the format finds in the encoded bytes.

## Main results

* `IssuedAmount.decodeIssued_encodedValue` — a representable issued amount survives.
* `encode_recovered_iff` — the reader recovers a transaction iff its amounts are in range.
-/

namespace GemCore.Xrp

open Lib

/-! ## Headers and lengths -/

/-- Two codes below 16 share a byte. -/
lemma toNat_shift_or {a b : UInt8} (ha : a < 16) (hb : b < 16) :
    ((a <<< 4) ||| b).toNat = a.toNat * 16 + b.toNat := by
  have ha' : a.toNat < 16 := ha
  have hb' : b.toNat < 16 := hb
  rw [UInt8.toNat_or, UInt8.toNat_shiftLeft]
  have hshift : a.toNat <<< (UInt8.toNat 4 % 8) % 2 ^ 8 = a.toNat <<< 4 := by
    rw [show UInt8.toNat 4 % 8 = 4 from rfl, Nat.shiftLeft_eq]
    exact Nat.mod_eq_of_lt (by omega)
  rw [hshift, ← Nat.shiftLeft_add_eq_or_of_lt (show b.toNat < 2 ^ 4 by omega), Nat.shiftLeft_eq]

lemma toNat_shift {a : UInt8} (ha : a < 16) : (a <<< 4).toNat = a.toNat * 16 := by
  have h := toNat_shift_or (b := 0) ha (by decide)
  simpa using h

/-- A header is read back, in each of its four forms. -/
lemma parseHeader_appendHeader {typeCode fieldCode : UInt8} (ht : typeCode ≠ 0)
    (hf : fieldCode ≠ 0) (rest : List UInt8) :
    parseHeader (appendHeader typeCode fieldCode ++ rest) =
      some (typeCode.toNat, fieldCode.toNat, rest) := by
  have ht' : typeCode.toNat ≠ 0 := fun h => ht (UInt8.toNat_inj.mp h)
  have hf' : fieldCode.toNat ≠ 0 := fun h => hf (UInt8.toNat_inj.mp h)
  unfold appendHeader
  by_cases hts : typeCode < 16
  · have hts' : typeCode.toNat < 16 := hts
    by_cases hfs : fieldCode < 16
    · have hfs' : fieldCode.toNat < 16 := hfs
      rw [if_pos hts, if_pos hfs]
      have hdiv : (typeCode.toNat * 16 + fieldCode.toNat) / 16 = typeCode.toNat := by omega
      have hmod : (typeCode.toNat * 16 + fieldCode.toNat) % 16 = fieldCode.toNat := by omega
      simp only [List.cons_append, List.nil_append, parseHeader, toNat_shift_or hts hfs, hdiv,
        hmod]
      rw [if_pos ⟨ht', hf'⟩]
    · have hfs' : 16 ≤ fieldCode.toNat := not_lt.mp hfs
      rw [if_pos hts, if_neg hfs]
      have hdiv : typeCode.toNat * 16 / 16 = typeCode.toNat := by omega
      have hmod : typeCode.toNat * 16 % 16 = 0 := by omega
      simp only [List.cons_append, List.nil_append, parseHeader, toNat_shift hts, hdiv, hmod]
      simp [ht', hfs']
  · have hts' : 16 ≤ typeCode.toNat := not_lt.mp hts
    by_cases hfs : fieldCode < 16
    · have hfs' : fieldCode.toNat < 16 := hfs
      rw [if_neg hts, if_pos hfs]
      have hdiv : fieldCode.toNat / 16 = 0 := by omega
      have hmod : fieldCode.toNat % 16 = fieldCode.toNat := by omega
      simp only [List.cons_append, List.nil_append, parseHeader, hdiv, hmod]
      simp [hf', hts']
    · have hfs' : 16 ≤ fieldCode.toNat := not_lt.mp hfs
      rw [if_neg hts, if_neg hfs]
      simp [parseHeader, hts', hfs']

/-- A length prefix is read back. -/
lemma parseLength_appendVariableLength {length : ℕ} {bytes : List UInt8}
    (h : appendVariableLength length = .ok bytes) (rest : List UInt8) :
    parseLength (bytes ++ rest) = some (length, rest) := by
  have hmask : ∀ n : ℕ, n &&& 0xff = n % 256 := fun n => Nat.and_two_pow_sub_one_eq_mod n 8
  unfold appendVariableLength at h
  simp only [hmask, Nat.shiftRight_eq_div_pow] at h
  split_ifs at h with h1 h2 h3
  all_goals obtain rfl := Except.ok.inj h
  · have hb : (UInt8.ofNat length).toNat = length := by
      rw [UInt8.toNat_ofNat']
      omega
    simp only [List.cons_append, List.nil_append, parseLength, hb, if_pos h1]
  · have hb : (UInt8.ofNat ((length - 193) / 2 ^ 8 + 193)).toNat =
        (length - 193) / 256 + 193 := by
      rw [UInt8.toNat_ofNat']
      omega
    have hc : (UInt8.ofNat ((length - 193) % 256)).toNat = (length - 193) % 256 := by
      rw [UInt8.toNat_ofNat']
      omega
    have hsum : 193 + ((length - 193) / 256 + 193 - 193) * 256 + (length - 193) % 256 =
        length := by omega
    simp only [List.cons_append, List.nil_append, parseLength, hb, hc]
    rw [if_neg (by omega), if_pos (by omega), hsum]
  · have hb : (UInt8.ofNat ((length - 12481) / 2 ^ 16 + 241)).toNat =
        (length - 12481) / 65536 + 241 := by
      rw [UInt8.toNat_ofNat']
      omega
    have hc : (UInt8.ofNat ((length - 12481) / 2 ^ 8 % 256)).toNat =
        (length - 12481) / 256 % 256 := by
      rw [UInt8.toNat_ofNat']
      omega
    have hd : (UInt8.ofNat ((length - 12481) % 256)).toNat = (length - 12481) % 256 := by
      rw [UInt8.toNat_ofNat']
      omega
    simp only [List.cons_append, List.nil_append, parseLength, hb, hc, hd]
    have hsum : 12481 + ((length - 12481) / 65536 + 241 - 241) * 65536 +
        (length - 12481) / 256 % 256 * 256 + (length - 12481) % 256 = length := by omega
    rw [if_neg (by omega), if_neg (by omega), if_pos (by omega), hsum, if_pos h3]

/-- **Canonical lengths**: the only prefix that is read as a length is the one that is
written for it. -/
theorem appendVariableLength_of_parseLength {bytes rest : List UInt8} {length : ℕ}
    (h : parseLength bytes = some (length, rest)) :
    ∃ written, appendVariableLength length = .ok written ∧ bytes = written ++ rest := by
  have hmask : ∀ n : ℕ, n &&& 0xff = n % 256 := fun n => Nat.and_two_pow_sub_one_eq_mod n 8
  have hbyte : ∀ (b : UInt8) (n : ℕ), n = b.toNat → UInt8.ofNat n = b := by
    rintro b n rfl
    exact UInt8.ofNat_toNat
  unfold appendVariableLength
  simp only [hmask, Nat.shiftRight_eq_div_pow]
  unfold parseLength at h
  split at h
  · cases h
  · rename_i b tail
    have hb := b.toNat_lt
    split_ifs at h with h1 h2 h3
    · obtain ⟨rfl, rfl⟩ := Prod.mk.inj (Option.some.inj h)
      rw [if_pos h1]
      exact ⟨_, rfl, by rw [hbyte b _ rfl]; rfl⟩
    · split at h
      · rename_i c rest'
        have hc := c.toNat_lt
        obtain ⟨rfl, rfl⟩ := Prod.mk.inj (Option.some.inj h)
        rw [if_neg (by omega), if_pos (by omega)]
        refine ⟨_, rfl, ?_⟩
        rw [hbyte b _ (by omega), hbyte c _ (by omega)]
        rfl
      · cases h
    · split at h
      · rename_i c d rest'
        have hc := c.toNat_lt
        have hd := d.toNat_lt
        dsimp only at h
        split_ifs at h with hmax
        obtain ⟨rfl, rfl⟩ := Prod.mk.inj (Option.some.inj h)
        rw [if_neg (by omega), if_neg (by omega), if_pos hmax]
        refine ⟨_, rfl, ?_⟩
        rw [hbyte b _ (by omega), hbyte c _ (by omega), hbyte d _ (by omega)]
        rfl
      · cases h

/-! ## Issued amounts -/

/-- The exponent of a scale within 32 bits is its negation. -/
lemma exponentOfScale_eq {scale : ℤ} (h : -1000 ≤ scale) (h' : scale ≤ 1000) :
    exponentOfScale scale = -scale := by
  unfold exponentOfScale asI32 Int.bmod
  dsimp only
  split_ifs <;> omega

/-- **The normal form is unique**: a mantissa without trailing zeros is scaled up to any
other mantissa of the same number. -/
theorem exists_scale_of_value_eq {m n : ℕ} {e f : ℤ} (hm : ¬10 ∣ m)
    (h : (m : ℚ) * 10 ^ e = n * 10 ^ f) : ∃ k : ℕ, n = m * 10 ^ k ∧ f = e - k := by
  have hten : (10 : ℚ) ≠ 0 := by norm_num
  by_cases hle : f ≤ e
  · obtain ⟨k, hk⟩ := Int.eq_ofNat_of_zero_le (sub_nonneg.mpr hle)
    refine ⟨k, ?_, by omega⟩
    have hsplit : (10 : ℚ) ^ e = 10 ^ k * 10 ^ f := by
      rw [← zpow_natCast, ← zpow_add₀ hten]
      congr 1
      omega
    rw [hsplit, ← mul_assoc] at h
    have := mul_right_cancel₀ (zpow_ne_zero f hten) h
    exact_mod_cast this.symm
  · exfalso
    obtain ⟨k, hk⟩ := Int.eq_ofNat_of_zero_le (show 0 ≤ f - e - 1 by omega)
    have hsplit : (10 : ℚ) ^ f = 10 ^ (k + 1) * 10 ^ e := by
      rw [← zpow_natCast, ← zpow_add₀ hten]
      congr 1
      push_cast
      omega
    rw [hsplit, ← mul_assoc] at h
    have hmn : (m : ℚ) = n * 10 ^ (k + 1) := mul_right_cancel₀ (zpow_ne_zero e hten) h
    have hmn' : m = n * 10 ^ (k + 1) := by exact_mod_cast hmn
    exact hm ⟨n * 10 ^ k, by rw [hmn', pow_succ]; ring⟩

/-- The first loop scales a mantissa up to 16 digits when the exponent allows it. -/
theorem scaleUp_eq : ∀ (k m : ℕ) (e : ℤ), minMantissa ≤ m * 10 ^ k → m * 10 ^ k ≤ maxMantissa →
    minIouExponent ≤ e - k →
    scaleUp (e - minIouExponent).toNat m e = (m * 10 ^ k, e - k) := by
  intro k
  induction k with
  | zero =>
    intro m e hmin _ _
    rw [pow_zero, mul_one] at hmin ⊢
    rw [Nat.cast_zero, sub_zero]
    cases (e - minIouExponent).toNat with
    | zero => rfl
    | succ fuel =>
      unfold scaleUp
      rw [if_neg (by omega)]
  | succ k ih =>
    intro m e hmin hmax he
    have hpow : m * 10 ^ (k + 1) = m * 10 * 10 ^ k := by ring
    have hone : 1 ≤ 10 ^ k := Nat.one_le_pow _ _ (by omega)
    have hsmall : m < minMantissa := by
      have hle : m * 10 * 1 ≤ m * 10 * 10 ^ k := Nat.mul_le_mul_left _ hone
      unfold minMantissa maxMantissa at *
      omega
    have hroom : minIouExponent < e := by
      push_cast at he
      omega
    have hfuel : (e - minIouExponent).toNat = (e - 1 - minIouExponent).toNat + 1 := by omega
    rw [hfuel]
    unfold scaleUp
    rw [if_pos ⟨hsmall, hroom⟩, ih (m * 10) (e - 1) (hpow ▸ hmin) (hpow ▸ hmax)
      (by push_cast at he; omega), hpow]
    congr 1
    push_cast
    omega

/-- The second loop leaves a mantissa of 16 digits alone. -/
lemma scaleDown_eq {m : ℕ} (e : ℤ) (fuel : ℕ) (h : m ≤ maxMantissa) :
    scaleDown fuel m e = .ok (m, e) := by
  cases fuel with
  | zero | succ fuel =>
    unfold scaleDown
    rw [if_neg (by omega)]

/-- Sign, exponent and mantissa do not overlap in the 64 bits. -/
lemma or_shift_eq {s x m : ℕ} (hx : x < 2 ^ 8) (hm : m < 2 ^ 54) :
    (s <<< 62 ||| x <<< 54) ||| m = (s * 2 ^ 8 + x) * 2 ^ 54 + m := by
  have hx' : x <<< 54 < 2 ^ 62 := by
    rw [Nat.shiftLeft_eq]
    omega
  rw [← Nat.shiftLeft_add_eq_or_of_lt hx']
  have hjoin : s <<< 62 + x <<< 54 = (s * 2 ^ 8 + x) <<< 54 := by
    simp only [Nat.shiftLeft_eq]
    ring
  rw [hjoin, ← Nat.shiftLeft_add_eq_or_of_lt hm, Nat.shiftLeft_eq]

/-- Packed bits are unpacked by the reader. -/
lemma decodeIssued_packIssued {isPositive : Bool} {mantissa bits : ℕ} {exponent : ℤ}
    (hm : minMantissa ≤ mantissa) (hm' : mantissa ≤ maxMantissa) (he : minIouExponent ≤ exponent)
    (he' : exponent ≤ maxIouExponent) (h : packIssued isPositive mantissa exponent = .ok bits) :
    2 ^ 63 ≤ bits ∧ bits < 2 ^ 64 ∧ decodeIssued bits =
      some (if isPositive then mantissa * (10 : ℚ) ^ exponent
        else -(mantissa * (10 : ℚ) ^ exponent)) := by
  unfold packIssued at h
  rw [if_neg (by omega), if_neg (by omega)] at h
  dsimp only at h
  unfold minMantissa at hm
  unfold maxMantissa at hm'
  unfold minIouExponent at he
  unfold maxIouExponent at he'
  obtain ⟨x, hx⟩ := Int.eq_ofNat_of_zero_le (show 0 ≤ exponent + 97 by omega)
  have hexp : exponent = (x : ℤ) - 97 := by omega
  rw [hx, Int.toNat_natCast] at h
  have hpacked : ∀ s : ℕ, 2 ≤ s → s ≤ 3 → bits = (s * 2 ^ 8 + x) * 2 ^ 54 + mantissa →
      2 ^ 63 ≤ bits ∧ bits < 2 ^ 64 ∧ decodeIssued bits =
        some (if s = 3 then mantissa * (10 : ℚ) ^ exponent
          else -(mantissa * (10 : ℚ) ^ exponent)) := by
    intro s hs hs' hbits
    have hlow : bits % 2 ^ 54 = mantissa := by omega
    have hmid : bits / 2 ^ 54 % 2 ^ 8 = x := by omega
    have hsign : bits / 2 ^ 62 % 2 = 1 ↔ s = 3 := by omega
    refine ⟨by omega, by omega, ?_⟩
    unfold decodeIssued
    simp only [hlow, hmid, hsign]
    rw [if_neg (by omega), if_pos ⟨by omega, by omega, by omega, by omega⟩, hexp]
  cases isPositive with
  | true =>
    have hthree : issuedCurrencyZero ||| posSignBitMask = 3 <<< 62 := by decide
    rw [if_pos rfl, hthree, or_shift_eq (by omega) (by omega)] at h
    simpa using hpacked 3 (by omega) (by omega) (Except.ok.inj h).symm
  | false =>
    have htwo : issuedCurrencyZero = 2 <<< 62 := by decide
    rw [if_neg (by decide), htwo, or_shift_eq (by omega) (by omega)] at h
    simpa using hpacked 2 (by omega) (by omega) (Except.ok.inj h).symm

variable (lib : DecimalLib)

/-- A representable number in normal form is scaled to its 16 digits. -/
lemma exists_scale_normalized {value : BigDecimal} (hzero : value.digits ≠ 0)
    (h : Representable value.value) :
    ∃ k : ℕ, minMantissa ≤ (lib.normalized value).digits.natAbs * 10 ^ k ∧
      (lib.normalized value).digits.natAbs * 10 ^ k ≤ maxMantissa ∧
      minIouExponent ≤ -(lib.normalized value).scale - k ∧
      -(lib.normalized value).scale - k ≤ maxIouExponent := by
  have hvalue := lib.value_normalized value
  have hndvd := lib.not_dvd_normalized value hzero
  set m := (lib.normalized value).digits with hm
  set e := -(lib.normalized value).scale with he
  have hvalue' : (m : ℚ) * 10 ^ e = value.value := hvalue
  have hten : (0 : ℚ) < 10 ^ e := zpow_pos (by norm_num) e
  have hm0 : m ≠ 0 := by
    intro h0
    exact hndvd ⟨0, by rw [h0]; rfl⟩
  have hne : value.value ≠ 0 := by
    rw [← hvalue']
    exact mul_ne_zero (by exact_mod_cast hm0) hten.ne'
  obtain hv | ⟨mantissa, exponent, hmin, hmax, hlow, hhigh, hv⟩ := h
  · exact absurd hv hne
  have habs : (m.natAbs : ℚ) * 10 ^ e = mantissa * 10 ^ exponent := by
    have hpos : (0 : ℚ) ≤ mantissa * 10 ^ exponent :=
      mul_nonneg (Nat.cast_nonneg _) (zpow_nonneg (by norm_num) _)
    have hleft : |(m : ℚ) * 10 ^ e| = (m.natAbs : ℚ) * 10 ^ e := by
      rw [abs_mul, abs_of_pos hten, ← Int.cast_abs, Int.abs_eq_natAbs, Int.cast_natCast]
    have hright : |value.value| = mantissa * 10 ^ exponent := by
      rcases hv with hv | hv
      · rw [hv, abs_of_nonneg hpos]
      · rw [hv, abs_neg, abs_of_nonneg hpos]
    rw [← hleft, hvalue', hright]
  have hndvd' : ¬10 ∣ m.natAbs := by
    intro hd
    exact hndvd (Int.natCast_dvd.mpr hd)
  obtain ⟨k, hk, hk'⟩ := exists_scale_of_value_eq hndvd' habs
  refine ⟨k, ?_, ?_, ?_, ?_⟩
  · rw [← hk]
    exact hmin
  · rw [← hk]
    unfold maxMantissa
    omega
  · rw [← hk']
    exact hlow
  · rw [← hk']
    exact hhigh

/-- A mantissa that was scaled up denotes the same number. -/
lemma signed_scaled (m : ℤ) (k : ℕ) (e : ℤ) :
    (if 0 < m then ((m.natAbs * 10 ^ k : ℕ) : ℚ) * 10 ^ (e - k)
      else -(((m.natAbs * 10 ^ k : ℕ) : ℚ) * 10 ^ (e - k))) = m * (10 : ℚ) ^ e := by
  have hten : (10 : ℚ) ≠ 0 := by norm_num
  have hscaled : ((m.natAbs * 10 ^ k : ℕ) : ℚ) * 10 ^ (e - (k : ℤ)) = (m.natAbs : ℚ) * 10 ^ e := by
    rw [zpow_sub₀ hten, zpow_natCast]
    push_cast
    field_simp
  rw [hscaled]
  split_ifs with hpos
  · congr 1
    have habs : (m.natAbs : ℤ) = m := by omega
    rw [← Int.cast_natCast, habs]
  · rw [← neg_mul]
    congr 1
    have habs : -(m.natAbs : ℤ) = m := by omega
    rw [← Int.cast_natCast, ← Int.cast_neg, habs]

/-- A decimal that is not zero is valid when it has at most 16 digits and its exponent, in 32 bits,
is in range. -/
theorem validateIssuedValue_eq_ok_iff {value : BigDecimal} (hzero : value.digits ≠ 0) :
    validateIssuedValue lib value = .ok () ↔ issuedAmountPrecision lib value ≤ 16 ∧
      minIouExponent ≤ issuedAmountExponent lib value ∧
      issuedAmountExponent lib value ≤ maxIouExponent := by
  unfold validateIssuedValue
  rw [if_neg hzero, guard_eq_ok_iff, guard_eq_ok_iff, not_lt, not_not]
  simp only [and_true]

/-- What is left of `encoded_value` for a valid decimal that is not zero. -/
lemma IssuedAmount.encodedValue_eq {amount : IssuedAmount} (hzero : amount.value.digits ≠ 0)
    (hvalid : validateIssuedValue lib amount.value = .ok ()) :
    amount.encodedValue lib =
      (let up := scaleUp (issuedAmountExponent lib amount.value - minIouExponent).toNat
        (lib.normalized amount.value).digits.natAbs (issuedAmountExponent lib amount.value)
      do
        let down ← scaleDown (maxIouExponent - up.2).toNat up.1 up.2
        packIssued (0 < (lib.normalized amount.value).digits) down.1 down.2) := by
  have hsmall : (lib.normalized amount.value).digits.natAbs < 10 ^ 16 := by
    have hprecision := ((validateIssuedValue_eq_ok_iff lib hzero).mp hvalid).1
    calc (lib.normalized amount.value).digits.natAbs
        < 10 ^ issuedAmountPrecision lib amount.value :=
          Nat.lt_base_pow_length_digits (by norm_num)
      _ ≤ 10 ^ 16 := Nat.pow_le_pow_right (by norm_num) hprecision
  unfold IssuedAmount.encodedValue
  rw [hvalid, ok_bind, if_neg hzero]
  dsimp only
  rw [if_neg (by omega)]
  rfl

/-- **A valid decimal with room for 16 digits** is encoded to its digits and its exponent in 32
bits. -/
theorem IssuedAmount.encodedValue_of_room {amount : IssuedAmount} (hzero : amount.value.digits ≠ 0)
    (hvalid : validateIssuedValue lib amount.value = .ok ()) {k : ℕ}
    (hmin : minMantissa ≤ (lib.normalized amount.value).digits.natAbs * 10 ^ k)
    (hmax : (lib.normalized amount.value).digits.natAbs * 10 ^ k ≤ maxMantissa)
    (hroom : minIouExponent ≤ issuedAmountExponent lib amount.value - k) :
    ∃ bits, amount.encodedValue lib = .ok bits ∧ 2 ^ 63 ≤ bits ∧ bits < 2 ^ 64 ∧
      decodeIssued bits = some ((lib.normalized amount.value).digits *
        (10 : ℚ) ^ issuedAmountExponent lib amount.value) := by
  obtain ⟨-, -, hexponent⟩ := (validateIssuedValue_eq_ok_iff lib hzero).mp hvalid
  have hhigh : issuedAmountExponent lib amount.value - k ≤ maxIouExponent := by omega
  have hpacked : ∃ bits, packIssued (0 < (lib.normalized amount.value).digits)
      ((lib.normalized amount.value).digits.natAbs * 10 ^ k)
      (issuedAmountExponent lib amount.value - k) = .ok bits := by
    unfold packIssued
    rw [if_neg (by omega), if_neg (by omega)]
    exact ⟨_, rfl⟩
  obtain ⟨bits, hbits⟩ := hpacked
  obtain ⟨hlo, hhi, hdecode⟩ := decodeIssued_packIssued hmin hmax hroom hhigh hbits
  refine ⟨bits, ?_, hlo, hhi, ?_⟩
  · rw [encodedValue_eq lib hzero hvalid]
    dsimp only
    rw [scaleUp_eq k _ _ hmin hmax hroom, scaleDown_eq _ _ hmax, ok_bind, hbits]
  · rw [hdecode, ← signed_scaled _ k]
    simp only [decide_eq_true_eq]

/-- **A representable issued amount survives**: the reader finds its number in the encoded
64 bits. -/
theorem IssuedAmount.decodeIssued_encodedValue {amount : IssuedAmount} {bits : ℕ}
    (hr : Representable amount.value.value) (h : amount.encodedValue lib = .ok bits) :
    2 ^ 63 ≤ bits ∧ bits < 2 ^ 64 ∧ decodeIssued bits = some amount.value.value := by
  have hvalid : validateIssuedValue lib amount.value = .ok () := by
    unfold IssuedAmount.encodedValue at h
    rw [check_bind_eq_ok_iff] at h
    exact h.1
  by_cases hzero : amount.value.digits = 0
  · unfold IssuedAmount.encodedValue at h
    rw [hvalid, ok_bind, if_pos hzero] at h
    obtain rfl := Except.ok.inj h
    have hvalue : amount.value.value = 0 := by
      unfold BigDecimal.value
      rw [hzero, Int.cast_zero, zero_mul]
    rw [hvalue]
    exact ⟨by decide, by decide, rfl⟩
  · obtain ⟨k, hmin, hmax, hlow, hhigh⟩ := exists_scale_normalized lib hzero hr
    -- a mantissa that is not zero is scaled up by at most 15 digits
    have hk : k ≤ 16 := by
      by_contra hk
      have hpos : 1 ≤ (lib.normalized amount.value).digits.natAbs := by
        rcases Nat.eq_zero_or_pos (lib.normalized amount.value).digits.natAbs with h0 | h0
        · rw [h0, zero_mul] at hmin
          exact absurd hmin (by decide)
        · exact h0
      have hbig : 10 ^ 17 ≤ (lib.normalized amount.value).digits.natAbs * 10 ^ k := calc
        10 ^ 17 ≤ 10 ^ k := Nat.pow_le_pow_right (by omega) (by omega)
        _ = 1 * 10 ^ k := (one_mul _).symm
        _ ≤ (lib.normalized amount.value).digits.natAbs * 10 ^ k := Nat.mul_le_mul_right _ hpos
      unfold maxMantissa at hmax
      omega
    have hexponent : issuedAmountExponent lib amount.value =
        -(lib.normalized amount.value).scale := by
      unfold minIouExponent at hlow
      unfold maxIouExponent at hhigh
      exact exponentOfScale_eq (by omega) (by omega)
    obtain ⟨bits', hbits, hlo, hhi, hdecode⟩ :=
      encodedValue_of_room lib hzero hvalid hmin hmax (hexponent ▸ hlow)
    obtain rfl := Except.ok.inj (h.symm.trans hbits)
    refine ⟨hlo, hhi, ?_⟩
    rw [hdecode, hexponent, ← lib.value_normalized]
    rfl

/-! ## Segments -/

/-- Codes below 16 and 32 other than the end markers start with a byte that is no end
marker. -/
theorem appendHeader_head {typeCode fieldCode : UInt8} (ht : typeCode < 14 ∨ fieldCode ≠ 1)
    (ht' : typeCode < 16) (hf : fieldCode ≠ 0) :
    ∃ first rest, appendHeader typeCode fieldCode = first :: rest ∧ first ≠ 0xe1 ∧
      first ≠ 0xf1 := by
  have hcode : fieldCode.toNat ≠ 0 := fun h => hf (UInt8.toNat_inj.mp h)
  have htype : typeCode.toNat < 14 ∨ fieldCode.toNat ≠ 1 := by
    rcases ht with ht | ht
    · exact Or.inl ht
    · exact Or.inr fun h => ht (UInt8.toNat_inj.mp h)
  have hmarker : ∀ b : UInt8, b.toNat ≠ 225 → b.toNat ≠ 241 → b ≠ 0xe1 ∧ b ≠ 0xf1 := by
    intro b h1 h2
    exact ⟨fun h => h1 (congrArg UInt8.toNat h), fun h => h2 (congrArg UInt8.toNat h)⟩
  unfold appendHeader
  rw [if_pos ht']
  by_cases hfs : fieldCode < 16
  · have hfs' : fieldCode.toNat < 16 := hfs
    rw [if_pos hfs]
    refine ⟨_, _, rfl, hmarker _ ?_ ?_⟩
    · rw [toNat_shift_or ht' hfs]
      omega
    · rw [toNat_shift_or ht' hfs]
      omega
  · rw [if_neg hfs]
    refine ⟨_, _, rfl, hmarker _ ?_ ?_⟩
    · rw [toNat_shift ht']
      omega
    · rw [toNat_shift ht']
      omega

/-- A header in front of a value that is read back. -/
lemma reads_of_appendHeader {typeCode fieldCode : UInt8} {body : List UInt8} {value : Value}
    (ht : typeCode < 14 ∨ fieldCode ≠ 1) (ht0 : typeCode ≠ 0) (ht' : typeCode < 16)
    (hf : fieldCode ≠ 0)
    (hvalue : ∀ fuel rest, body.length ≤ fuel →
      parseValue (parseFields fuel) typeCode.toNat (body ++ rest) = some (value, rest)) :
    Reads (appendHeader typeCode fieldCode ++ body)
      (typeCode.toNat, fieldCode.toNat, value) :=
  Reads.of_value (appendHeader_head ht ht' hf) (parseHeader_appendHeader ht0 hf) hvalue

lemma reads_appendU16 {field : UInt8} (hf : field ≠ 0) (value : UInt16) :
    Reads (appendU16 field value) (1, field.toNat, .uint16 value.toNat) := by
  refine reads_of_appendHeader (Or.inl (by decide)) (by decide) (by decide) hf ?_
  intro fuel rest _
  have hvalue : ∀ bytes, parseValue (parseFields fuel) 1 bytes =
      (takeBytes 2 bytes).map fun read => (.uint16 (ofBe read.1), read.2) :=
    fun _ => rfl
  rw [show UInt8.toNat 1 = 1 from rfl, hvalue, takeBytes_append rest (length_beBytes 2 _), Option.map_some]
  dsimp only
  rw [ofBe_beBytes_of_lt value.toNat_lt]

lemma reads_appendU32 {field : UInt8} (hf : field ≠ 0) (value : UInt32) :
    Reads (appendU32 field value) (2, field.toNat, .uint32 value.toNat) := by
  refine reads_of_appendHeader (Or.inl (by decide)) (by decide) (by decide) hf ?_
  intro fuel rest _
  have hvalue : ∀ bytes, parseValue (parseFields fuel) 2 bytes =
      (takeBytes 4 bytes).map fun read => (.uint32 (ofBe read.1), read.2) :=
    fun _ => rfl
  rw [show UInt8.toNat 2 = 2 from rfl, hvalue, takeBytes_append rest (length_beBytes 4 _), Option.map_some]
  dsimp only
  rw [ofBe_beBytes_of_lt value.toNat_lt]

/-- A length and a value of that length are read back. -/
lemma parsePrefixed_append {value length : List UInt8} (rest : List UInt8)
    (h : appendVariableLength value.length = .ok length) :
    parsePrefixed (length ++ value ++ rest) = some (value, rest) := by
  unfold parsePrefixed
  rw [List.append_assoc, parseLength_appendVariableLength h]
  exact takeBytes_append rest rfl

lemma reads_appendBlob {field : UInt8} (hf : field ≠ 0) {value bytes : List UInt8}
    (h : appendBlob field value = .ok bytes) : Reads bytes (7, field.toNat, .blob value) := by
  unfold appendBlob appendPrefixed at h
  rw [bind_eq_ok_iff] at h
  obtain ⟨length, hlength, h⟩ := h
  obtain rfl := Except.ok.inj h
  rw [List.append_assoc]
  refine reads_of_appendHeader (Or.inl (by decide)) (by decide) (by decide) hf ?_
  intro fuel rest _
  change (parsePrefixed _).map _ = _
  rw [parsePrefixed_append rest hlength]
  rfl

lemma reads_appendAddress {field : UInt8} (hf : field ≠ 0) {value : FixedBytes 20}
    {bytes : List UInt8} (h : appendAddress field value = .ok bytes) :
    Reads bytes (8, field.toNat, .account value.val) := by
  unfold appendAddress appendPrefixed at h
  rw [bind_eq_ok_iff] at h
  obtain ⟨length, hlength, h⟩ := h
  obtain rfl := Except.ok.inj h
  rw [List.append_assoc]
  refine reads_of_appendHeader (Or.inl (by decide)) (by decide) (by decide) hf ?_
  intro fuel rest _
  have hread := parsePrefixed_append rest hlength
  rw [show UInt8.toNat 8 = 8 from rfl, parseValue, hread]
  exact if_pos value.property

/-- The value a reader should find for an amount. -/
def XrpAmount.toValue : XrpAmount → Value
  | native amount => .native (amount.toNat : ℤ)
  | issued amount => .issued amount.value.value amount.currency.val amount.issuer.val

@[simp] lemma XrpAmount.toValue_native (amount : UInt64) :
    (XrpAmount.native amount).toValue = .native (amount.toNat : ℤ) := rfl

/-- The amount is within the limits of the format. -/
def XrpAmount.InRange : XrpAmount → Prop
  | native amount => amount.toNat ≤ dropLimit
  | issued amount => Representable amount.value.value

/-- An amount in range is read back. -/
lemma parseAmount_encode {amount : XrpAmount} {bytes : List UInt8} (hrange : amount.InRange)
    (h : amount.encode lib = .ok bytes) (rest : List UInt8) :
    parseAmount (bytes ++ rest) = some (amount.toValue, rest) := by
  cases amount with
  | native amount =>
    obtain rfl := Except.ok.inj h
    have hle : amount.toNat ≤ 10 ^ 17 := hrange
    have hbits : amount.toNat ||| posSignBitMask = 2 ^ 62 + amount.toNat := by
      have hor := Nat.shiftLeft_add_eq_or_of_lt (show amount.toNat < 2 ^ 62 by omega) 1
      rw [Nat.or_comm]
      exact hor.symm
    unfold parseAmount
    rw [takeBytes_append rest (length_beBytes 8 _)]
    dsimp only
    rw [hbits, ofBe_beBytes_of_lt (by omega), if_pos (by omega)]
    have hmagnitude : (2 ^ 62 + amount.toNat) % 2 ^ 62 = amount.toNat := by omega
    have hsign : (2 ^ 62 + amount.toNat) / 2 ^ 62 = 1 := by omega
    unfold decodeNative
    simp only [hmagnitude, hsign, if_true]
    rw [if_pos (show amount.toNat ≤ dropLimit from hrange)]
    rfl
  | issued amount =>
    simp only [XrpAmount.encode, bind_eq_ok_iff] at h
    obtain ⟨bits, hbits, h⟩ := h
    obtain rfl := Except.ok.inj h
    obtain ⟨hlow, hhigh, hdecode⟩ := amount.decodeIssued_encodedValue lib hrange hbits
    unfold parseAmount
    rw [List.append_assoc, List.append_assoc,
      takeBytes_append _ (length_beBytes 8 _)]
    dsimp only
    rw [ofBe_beBytes_of_lt (by omega), if_neg (by omega), hdecode,
      takeBytes_append _ amount.currency.property]
    dsimp only
    rw [takeBytes_append _ amount.issuer.property]
    rfl

lemma reads_appendAmount {field : UInt8} (hf : field ≠ 0) {amount : XrpAmount}
    {bytes : List UInt8} (hrange : amount.InRange)
    (h : appendAmount lib field amount = .ok bytes) :
    Reads bytes (6, field.toNat, amount.toValue) := by
  unfold appendAmount at h
  rw [bind_eq_ok_iff] at h
  obtain ⟨body, hbody, h⟩ := h
  obtain rfl := Except.ok.inj h
  refine reads_of_appendHeader (Or.inl (by decide)) (by decide) (by decide) hf ?_
  intro fuel rest _
  exact parseAmount_encode lib hrange hbody rest

/-- The field of a memo: an array of one object of one blob. -/
def memoFields : XrpPaymentMemo → List Field
  | .memo data => [(15, 9, .array [(14, 10, .object [(7, 13, .blob data)])])]
  | .none | .destinationTag _ => []

/-- A memo is read back through its two levels of nesting. -/
lemma readsAll_appendMemo {memo : XrpPaymentMemo} {bytes : List UInt8}
    (h : appendMemo memo = .ok bytes) : ReadsAll bytes (memoFields memo) := by
  cases memo with
  | none | destinationTag tag =>
    obtain rfl := Except.ok.inj h
    exact ReadsAll.nil
  | memo data =>
    simp only [appendMemo, bind_eq_ok_iff] at h
    obtain ⟨blob, hblob, h⟩ := h
    obtain rfl := Except.ok.inj h
    have hinner : Reads (appendHeader 14 10 ++ (blob ++ [0xe1]))
        (14, 10, .object [(7, 13, .blob data)]) := by
      refine reads_of_appendHeader (Or.inr (by decide)) (by decide) (by decide) (by decide) ?_
      intro fuel rest hfuel
      rw [List.length_append, List.length_singleton] at hfuel
      have hread : parseFields fuel .object (blob ++ (Scope.object.close ++ rest)) =
          some ([(7, 13, .blob data)], rest) :=
        (reads_appendBlob (by decide) hblob).all.parseFields_eq (by simp) (by omega)
      change (parseFields fuel .object _).map _ = _
      rw [List.append_assoc]
      exact congrArg (Option.map _) hread
    have houter : Reads (appendHeader 15 9 ++ (appendHeader 14 10 ++ (blob ++ [0xe1]) ++ [0xf1]))
        (15, 9, .array [(14, 10, .object [(7, 13, .blob data)])]) := by
      refine reads_of_appendHeader (Or.inr (by decide)) (by decide) (by decide) (by decide) ?_
      intro fuel rest hfuel
      rw [List.length_append, List.length_singleton] at hfuel
      have hread : parseFields fuel .array
          (appendHeader 14 10 ++ (blob ++ [0xe1]) ++ (Scope.array.close ++ rest)) =
          some ([(14, 10, .object [(7, 13, .blob data)])], rest) :=
        hinner.all.parseFields_eq (by simp) (by omega)
      change (parseFields fuel .array _).map _ = _
      rw [List.append_assoc (appendHeader 14 10 ++ (blob ++ [0xe1]))]
      exact congrArg (Option.map _) hread
    have hbytes : appendHeader 15 9 ++ appendHeader 14 10 ++ blob ++ [0xe1] ++ [0xf1] =
        appendHeader 15 9 ++ (appendHeader 14 10 ++ (blob ++ [0xe1]) ++ [0xf1]) := by
      simp only [List.append_assoc]
    rw [hbytes]
    exact houter.all

/-! ## Transactions -/

/-- The destination tag of a payment that has one. -/
def XrpTransaction.destinationTagFields (transaction : XrpTransaction) : List Field :=
  match transaction.operation with
  | .payment _ _ (.destinationTag tag) => [(2, 14, .uint32 tag.toNat)]
  | _ => []

/-- The amount of a payment or the limit of a trust line. -/
def XrpTransaction.amount (transaction : XrpTransaction) : XrpAmount :=
  match transaction.operation with
  | .payment amount _ _ => amount
  | .trustSet limitAmount => limitAmount

/-- The field of the amount: `Amount` or `LimitAmount`. -/
def XrpTransaction.amountField (transaction : XrpTransaction) : Field :=
  match transaction.operation with
  | .payment amount _ _ => (6, 1, amount.toValue)
  | .trustSet limitAmount => (6, 3, limitAmount.toValue)

/-- The signature, once there is one. -/
def signatureFields : Option (List UInt8) → List Field
  | some signature => [(7, 4, .blob signature)]
  | none => []

/-- Destination and memo of a payment. -/
def XrpTransaction.destinationFields (transaction : XrpTransaction) : List Field :=
  match transaction.operation with
  | .payment _ destination memo => (8, 3, .account destination.val) :: memoFields memo
  | .trustSet _ => []

/-- **The fields of a transaction**, in the order of the format. -/
def XrpTransaction.fields (transaction : XrpTransaction) (signature : Option (List UInt8)) :
    List Field :=
  [(1, 2, .uint16 transaction.transactionType.toNat), (2, 2, .uint32 0),
    (2, 4, .uint32 transaction.sequence.toNat)] ++ transaction.destinationTagFields ++
  [(2, 27, .uint32 transaction.lastLedgerSequence.toNat), transaction.amountField,
    (6, 8, .native (transaction.fee.toNat : ℤ)), (7, 3, .blob transaction.signingPubKey)] ++
  signatureFields signature ++ [(8, 1, .account transaction.account.val)] ++
  transaction.destinationFields

/-- The amounts of a transaction, the fee among them, are within the limits of the format. -/
def XrpTransaction.InRange (transaction : XrpTransaction) : Prop :=
  transaction.amount.InRange ∧ transaction.fee.toNat ≤ dropLimit

/-- The blobs of a transaction: key, signature and memo. -/
def XrpTransaction.blobs (transaction : XrpTransaction) (signature : Option (List UInt8)) :
    List (List UInt8) :=
  transaction.signingPubKey :: (signature.toList ++
    match transaction.operation with
    | .payment _ _ (.memo data) => [data]
    | _ => [])

/-- A blob that is written is not too long. -/
lemma length_le_of_appendBlob {field : UInt8} {value bytes : List UInt8}
    (h : appendBlob field value = .ok bytes) : value.length ≤ 918744 := by
  unfold appendBlob appendPrefixed at h
  rw [bind_eq_ok_iff] at h
  obtain ⟨length, hlength, -⟩ := h
  unfold appendVariableLength at hlength
  split_ifs at hlength
  all_goals omega

/-- **What a reader of the format finds** in the encoded bytes of a transaction:

* `parsed` — exactly its fields;
* `ascending` — in the order of the format;
* `canonical` — a length prefix is the only one that denotes its length;
* `short` — no blob above the limit got through.

An amount above the limit of the format is not in the list of fields a reader returns, so
`parsed` also says that none got through. -/
structure Recovered (transaction : XrpTransaction) (signature : Option (List UInt8))
    (bytes : List UInt8) : Prop where
  parsed : parse bytes = some (transaction.fields signature)
  ascending : (transaction.fields signature).Pairwise Field.Before
  canonical : ∀ length written other, appendVariableLength length = .ok written →
    parseLength other = some (length, []) → other = written
  short : ∀ blob ∈ transaction.blobs signature, blob.length ≤ 918744

/-- The fields come in ascending order. -/
lemma fields_ascending (transaction : XrpTransaction) (signature : Option (List UInt8)) :
    (transaction.fields signature).Pairwise Field.Before := by
  cases transaction with
  | mk sequence lastLedgerSequence fee signingPubKey account operation =>
    cases signature <;> cases operation with
    | trustSet limitAmount =>
      simp [XrpTransaction.fields, XrpTransaction.destinationTagFields,
        XrpTransaction.amountField, XrpTransaction.destinationFields, signatureFields, Field.Before]
    | payment amount destination memo =>
      cases memo <;>
      simp [XrpTransaction.fields, XrpTransaction.destinationTagFields, memoFields,
        XrpTransaction.amountField, XrpTransaction.destinationFields, signatureFields, Field.Before]

/-- An amount the reader accepts is in range. -/
lemma XrpAmount.inRange_of_wellFormed {amount : XrpAmount} (h : amount.toValue.WellFormed) :
    amount.InRange := by
  cases amount with
  | native amount =>
    have h' : (amount.toNat : ℤ) ≤ (dropLimit : ℤ) := h
    exact Int.ofNat_le.mp h'
  | issued amount => exact h

lemma XrpTransaction.amountField_value (transaction : XrpTransaction) :
    transaction.amountField.2.2 = transaction.amount.toValue := by
  unfold XrpTransaction.amountField XrpTransaction.amount
  cases transaction.operation <;> rfl

/-- A recovered transaction has its amounts in range: the reader accepts no others. -/
theorem inRange_of_parse {transaction : XrpTransaction} {signature : Option (List UInt8)}
    {bytes : List UInt8} (h : parse bytes = some (transaction.fields signature)) :
    transaction.InRange := by
  obtain ⟨⟨fields, rest⟩, hfields, heq⟩ := Option.map_eq_some_iff.mp h
  have hwell := parseFields_wellFormed _ hfields
  dsimp only at heq
  rw [heq] at hwell
  have hamount := hwell transaction.amountField (by simp [XrpTransaction.fields])
  have hfee : (XrpAmount.native transaction.fee).toValue.WellFormed :=
    hwell (6, 8, (XrpAmount.native transaction.fee).toValue) (by simp [XrpTransaction.fields])
  rw [transaction.amountField_value] at hamount
  have hfeeRange : (XrpAmount.native transaction.fee).InRange :=
    XrpAmount.inRange_of_wellFormed hfee
  exact ⟨XrpAmount.inRange_of_wellFormed hamount, hfeeRange⟩

/-- The optional parts of a transaction are read back. -/
lemma readsAll_destinationTagBytes (transaction : XrpTransaction) :
    ReadsAll transaction.destinationTagBytes transaction.destinationTagFields := by
  unfold XrpTransaction.destinationTagBytes XrpTransaction.destinationTagFields
  cases transaction.operation with
  | payment amount destination memo =>
    cases memo with
    | destinationTag tag => exact (reads_appendU32 (show (14 : UInt8) ≠ 0 by decide) tag).all
    | none => exact ReadsAll.nil
    | memo data => exact ReadsAll.nil
  | trustSet limitAmount => exact ReadsAll.nil

lemma reads_amountBytes {transaction : XrpTransaction} {bytes : List UInt8}
    (hrange : transaction.amount.InRange) (h : transaction.amountBytes lib = .ok bytes) :
    Reads bytes transaction.amountField := by
  unfold XrpTransaction.amountBytes at h
  unfold XrpTransaction.amount at hrange
  unfold XrpTransaction.amountField
  cases hop : transaction.operation with
  | payment amount destination memo | trustSet limitAmount =>
    rw [hop] at h hrange
    exact reads_appendAmount lib (by decide) hrange h

lemma readsAll_signatureBytes {signature : Option (List UInt8)} {bytes : List UInt8}
    (h : signatureBytes signature = .ok bytes) : ReadsAll bytes (signatureFields signature) := by
  cases signature with
  | none =>
    obtain rfl := Except.ok.inj h
    exact ReadsAll.nil
  | some signature => exact (reads_appendBlob (by decide) h).all

lemma readsAll_destinationBytes {transaction : XrpTransaction} {bytes : List UInt8}
    (h : transaction.destinationBytes = .ok bytes) :
    ReadsAll bytes transaction.destinationFields := by
  unfold XrpTransaction.destinationBytes at h
  unfold XrpTransaction.destinationFields
  cases hop : transaction.operation with
  | payment amount destination memo =>
    rw [hop] at h
    simp only [bind_eq_ok_iff] at h
    obtain ⟨address, haddress, memoBytes, hmemo, h⟩ := h
    obtain rfl := Except.ok.inj h
    exact (reads_appendAddress (by decide) haddress).all.append (readsAll_appendMemo hmemo)
  | trustSet limitAmount =>
    rw [hop] at h
    obtain rfl := Except.ok.inj h
    exact ReadsAll.nil

/-- No blob that is too long gets through. -/
lemma length_le_of_encode {transaction : XrpTransaction} {signature : Option (List UInt8)}
    {key sig destination : List UInt8}
    (hkey : appendBlob 3 transaction.signingPubKey = .ok key)
    (hsig : signatureBytes signature = .ok sig)
    (hdestination : transaction.destinationBytes = .ok destination) :
    ∀ blob ∈ transaction.blobs signature, blob.length ≤ 918744 := by
  intro blob hblob
  rcases List.mem_cons.mp hblob with rfl | hblob
  · exact length_le_of_appendBlob hkey
  rcases List.mem_append.mp hblob with hblob | hblob
  · rw [Option.mem_toList] at hblob
    subst hblob
    exact length_le_of_appendBlob hsig
  · unfold XrpTransaction.destinationBytes at hdestination
    split at hblob
    · rename_i amount destination' data hop
      obtain rfl := List.mem_singleton.mp hblob
      rw [hop] at hdestination
      simp only [bind_eq_ok_iff, appendMemo] at hdestination
      obtain ⟨_, -, _, ⟨_, hdata, -⟩, -⟩ := hdestination
      exact length_le_of_appendBlob hdata
    · cases hblob

/-- **Round trip of the binary form**: of the transactions that `encode` accepts, a reader of
the format recovers exactly those whose amounts are within its limits.

**Proof sketch.** Each part of the encoding is a segment that the reader takes for one field
(`reads_append*`), so the whole is read back field by field. Conversely a reader never
returns an amount above the limits, so it cannot have returned the fields of a transaction
that has one. -/
theorem encode_recovered_iff (transaction : XrpTransaction) (signature : Option (List UInt8))
    (bytes : List UInt8) (h : transaction.encode lib signature = .ok bytes) :
    Recovered transaction signature bytes ↔ transaction.InRange := by
  constructor
  · intro hrec
    exact inRange_of_parse hrec.parsed
  · rintro ⟨hamount, hfee⟩
    unfold XrpTransaction.encode at h
    simp only [bind_eq_ok_iff] at h
    obtain ⟨amountBytes, hamountBytes, feeBytes, hfeeBytes, key, hkey, sig, hsig, account,
      haccount, destination, hdestination, h⟩ := h
    obtain rfl := Except.ok.inj h
    refine ⟨?_, fields_ascending transaction signature, ?_, ?_⟩
    · -- the encoding is a sequence of segments
      apply ReadsAll.parse_eq
      have hu16 := (reads_appendU16 (show (2 : UInt8) ≠ 0 by decide)
        transaction.transactionType).all
      have hflags := (reads_appendU32 (show (2 : UInt8) ≠ 0 by decide) 0).all
      have hsequence := (reads_appendU32 (show (4 : UInt8) ≠ 0 by decide)
        transaction.sequence).all
      have hledger := (reads_appendU32 (show (27 : UInt8) ≠ 0 by decide)
        transaction.lastLedgerSequence).all
      have hvalue := (reads_amountBytes lib hamount hamountBytes).all
      have hfeeRead := (reads_appendAmount lib (by decide)
        (show (XrpAmount.native transaction.fee).InRange from hfee) hfeeBytes).all
      have hkeyRead := (reads_appendBlob (by decide) hkey).all
      have haccountRead := (reads_appendAddress (by decide) haccount).all
      have hall := ((((((((((hu16.append hflags).append hsequence).append
        (readsAll_destinationTagBytes transaction)).append hledger).append hvalue).append
        hfeeRead).append hkeyRead).append (readsAll_signatureBytes hsig)).append
        haccountRead).append (readsAll_destinationBytes hdestination))
      unfold XrpTransaction.fields
      simpa [List.append_assoc] using hall
    · intro length written other hwritten hother
      obtain ⟨written', hwritten', rfl⟩ := appendVariableLength_of_parseLength hother
      rw [hwritten] at hwritten'
      rw [Except.ok.inj hwritten', List.append_nil]
    · exact length_le_of_encode hkey hsig hdestination

/-! ## A decimal library and two payments -/

/-- Drop trailing zeros, at most `fuel` of them. -/
def stripZeros : ℕ → BigDecimal → BigDecimal
  | 0, decimal => decimal
  | fuel + 1, decimal =>
    if decimal.digits % 10 = 0 then stripZeros fuel ⟨decimal.digits / 10, decimal.scale - 1⟩
    else decimal

lemma value_stripZeros (fuel : ℕ) (decimal : BigDecimal) :
    (stripZeros fuel decimal).value = decimal.value := by
  induction fuel generalizing decimal with
  | zero => rfl
  | succ fuel ih =>
    unfold stripZeros
    split_ifs with h
    · rw [ih]
      obtain ⟨n, hn⟩ := Int.dvd_of_emod_eq_zero h
      have hdiv : decimal.digits / 10 = n := by omega
      have hexp : -(decimal.scale - 1) = -decimal.scale + 1 := by omega
      unfold BigDecimal.value
      rw [hdiv, hexp, hn, zpow_add_one₀ (by norm_num)]
      push_cast
      ring
    · rfl

lemma not_dvd_stripZeros (fuel : ℕ) (decimal : BigDecimal) (h : decimal.digits ≠ 0)
    (hfuel : decimal.digits.natAbs ≤ fuel) : ¬(10 : ℤ) ∣ (stripZeros fuel decimal).digits := by
  induction fuel generalizing decimal with
  | zero => omega
  | succ fuel ih =>
    unfold stripZeros
    split_ifs with hmod
    · exact ih _ (by dsimp only; omega) (by dsimp only; omega)
    · intro hd
      exact hmod (Int.emod_eq_zero_of_dvd hd)

/-- A decimal library. -/
def referenceLib : DecimalLib where
  normalized decimal := stripZeros decimal.digits.natAbs decimal
  value_normalized decimal := value_stripZeros _ decimal
  not_dvd_normalized decimal h := not_dvd_stripZeros _ decimal h le_rfl

/-- A payment of 10 drops with the given fee. -/
def samplePayment (fee : UInt64) : XrpTransaction where
  sequence := 32268248
  lastLedgerSequence := 32268269
  fee := fee
  signingPubKey := [0x03, 0xd1, 0x3e]
  account := ⟨List.replicate 20 0x4c, rfl⟩
  operation := .payment (.native 10) ⟨List.replicate 20 0x81, rfl⟩ (.destinationTag 123)

/-- The bytes of `samplePayment`, with the bytes of its fee. -/
def samplePaymentBytes (fee : List UInt8) : List UInt8 :=
  [0x12, 0x00, 0x00, 0x22, 0x00, 0x00, 0x00, 0x00, 0x24, 0x01, 0xec, 0x5f, 0xd8, 0x2e, 0x00,
    0x00, 0x00, 0x7b, 0x20, 0x1b, 0x01, 0xec, 0x5f, 0xed, 0x61, 0x40, 0x00, 0x00, 0x00, 0x00,
    0x00, 0x00, 0x0a, 0x68] ++ fee ++ [0x73, 0x03, 0x03, 0xd1, 0x3e, 0x81, 0x14] ++
  List.replicate 20 0x4c ++ [0x83, 0x14] ++ List.replicate 20 0x81

theorem encode_recovered_iff_sample :
    (samplePayment 10).encode referenceLib none =
        .ok (samplePaymentBytes [0x40, 0, 0, 0, 0, 0, 0, 0x0a]) ∧
      (Recovered (samplePayment 10) none (samplePaymentBytes [0x40, 0, 0, 0, 0, 0, 0, 0x0a]) ↔
        (samplePayment 10).InRange) := by
  have h : (samplePayment 10).encode referenceLib none =
      .ok (samplePaymentBytes [0x40, 0, 0, 0, 0, 0, 0, 0x0a]) := by decide +kernel
  exact ⟨h, encode_recovered_iff referenceLib _ _ _ h⟩

/-- A fee of `2^62` drops is accepted, and its bytes are those of a fee of zero: the fee and
the sign share bit 62. -/
theorem encode_fee_above_limit :
    (samplePayment (2 ^ 62)).encode referenceLib none =
        .ok (samplePaymentBytes [0x40, 0, 0, 0, 0, 0, 0, 0]) ∧
      (samplePayment 0).encode referenceLib none =
        .ok (samplePaymentBytes [0x40, 0, 0, 0, 0, 0, 0, 0]) ∧
      ¬Recovered (samplePayment (2 ^ 62)) none
        (samplePaymentBytes [0x40, 0, 0, 0, 0, 0, 0, 0]) := by
  refine ⟨by decide +kernel, by decide +kernel, ?_⟩
  intro hrec
  exact absurd (inRange_of_parse hrec.parsed).2 (by decide +kernel)

end GemCore.Xrp
