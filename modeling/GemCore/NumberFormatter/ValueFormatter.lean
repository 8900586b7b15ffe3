import GemCore.NumberFormatter.BigNumber
import GemCore.Xrp.RoundTrip
import Mathlib.Data.Nat.Log

/-!
# The formatter of displayed amounts

An amount is shown in full, or cut to two decimals or four significant digits
(`number_formatter/src/value_formatter.rs`, `add_thousands_separator` of `currency.rs`). The texts
are cut, padded and regrouped as lists of characters.

## Main definitions

* `bigdecimalToPlainString` — a decimal without an exponent.
* `format` — `ValueFormatter::format`.
* `Shortened` — what a shortened amount owes the amount.

## Main results

* `plainString_spec` — the plain text is a numeral of the decimal.
* `formatFull_spec`, `formatAuto_spec` — what the two styles show.
* `displayed_spec` — displayed amounts are faithful.
-/

namespace GemCore.NumberFormatter

open Lib.Decimal
open Xrp (BigDecimal DecimalLib)

/-- `ValueStyle`. -/
inductive ValueStyle where
  | full
  | auto

/-! ## Texts -/

/-- `bigdecimal_to_plain_string`. -/
def bigdecimalToPlainString (decimal : BigDecimal) : List Char :=
  let digits := Nat.toDigits 10 decimal.digits.natAbs
  let result :=
    if decimal.scale ≤ 0 then digits ++ List.replicate (-decimal.scale).toNat '0'
    else
      let scale := decimal.scale.toNat
      if digits.length ≤ scale then
        '0' :: '.' :: (List.replicate (scale - digits.length) '0' ++ digits)
      else digits.take (digits.length - scale) ++ '.' :: digits.drop (digits.length - scale)
  if decimal.digits < 0 then '-' :: result else result

/-- `strip_trailing_zeros`. -/
def stripTrailingZeros (value : List Char) : List Char :=
  if '.' ∉ value then value
  else
    let trimmed := value.rdropWhile (· = '0')
    if trimmed.getLast? = some '.' then trimmed.dropLast else trimmed

/-- The loop of `add_thousands_separator`: a separator before every third digit from the end, the
first digit apart. -/
def formattedInteger (thousandsSep : Char) (chars : List Char) : List Char :=
  chars.zipIdx.flatMap fun (ch, i) =>
    if 0 < i ∧ (chars.length - i) % 3 = 0 then [thousandsSep, ch] else [ch]

/-- The text behind a minus sign, and whether there is one. -/
def stripMinus : List Char → Bool × List Char
  | '-' :: rest => (true, rest)
  | text => (false, text)

/-- `add_thousands_separator`. -/
def addThousandsSeparator (amount : List Char) (thousandsSep decimalSep : Char) : List Char :=
  let (integerPart, decimalPart) := match Lib.splitOnce (· = '.') amount with
    | some (int, dec) => (int, some dec)
    | none => (amount, none)
  let (negative, integerPart) := stripMinus integerPart
  let result := sign negative ++ formattedInteger thousandsSep integerPart
  match decimalPart with
  | some (c :: decimal) => result ++ decimalSep :: c :: decimal
  | _ => result

/-- `apply_thousands_separator`. -/
def applyThousandsSeparator (value : List Char) : List Char := addThousandsSeparator value ',' '.'

/-- `truncate_significant`. -/
def truncateSignificant (value : List Char) (maxSig : ℕ) : List Char :=
  let (negative, abs) := stripMinus value
  let fraction := ((Lib.splitOnce (· = '.') abs).getD (abs, [])).2
  let leadingZeros := (fraction.takeWhile (· = '0')).length
  let sigEnd := min (leadingZeros + maxSig) fraction.length
  sign negative ++ ('0' :: '.' :: fraction.take sigEnd)

/-! ## Styles -/

section Styles

variable (lib : NumberLib)

/-- `format_full`. -/
def formatFull (decimal : BigDecimal) : List Char :=
  applyThousandsSeparator (stripTrailingZeros (bigdecimalToPlainString (lib.normalized decimal)))

/-- `format_short`: `{:0<2}` fills the fraction up with zeros behind it. -/
def formatShort (decimal : BigDecimal) : List Char :=
  let plain := bigdecimalToPlainString decimal
  let (integer, fraction) := (Lib.splitOnce (· = '.') plain).getD (plain, [])
  let fraction := if 2 < fraction.length then fraction.take 2 else fraction
  applyThousandsSeparator (integer ++ '.' :: fraction.rightpad 2 '0')

/-- `format_middle`. -/
def formatMiddle (decimal : BigDecimal) : List Char :=
  truncateSignificant (bigdecimalToPlainString (lib.normalized decimal)) 4

/-- The threshold of `format_auto`. -/
def threshold : BigDecimal := ⟨1, 4⟩

/-- `format_auto`. -/
def formatAuto (decimal : BigDecimal) : List Char :=
  if decimal.digits = 0 then ['0']
  else if 1 ≤ |decimal.value| then formatShort decimal
  else if threshold.value ≤ |decimal.value| then formatMiddle lib decimal
  else formatFull lib decimal

/-- `i32 as u32`. -/
def asU32 (n : ℤ) : ℕ := (n % 2 ^ 32).toNat

/-- `ValueFormatter::format`. -/
def format (style : ValueStyle) (value : String) (decimals : ℤ) :
    Except NumberFormatterError String := do
  let decimal ← bigDecimalValue lib value (asU32 decimals)
  match style with
  | .full => .ok (String.ofList (formatFull lib decimal))
  | .auto => .ok (String.ofList (formatAuto lib decimal))

end Styles

/-! ## Numerals -/

variable {text int frac : List Char} {negative : Bool}

/-- A text behind its sign. -/
lemma ite_minus (p : Prop) [Decidable p] (text : List Char) :
    (if p then '-' :: text else text) = sign (decide p) ++ text := by
  by_cases h : p
  · rw [if_pos h, decide_eq_true h]
    rfl
  · rw [if_neg h, decide_eq_false h]
    rfl

/-- The number of a decimal from the magnitude of its integer. -/
lemma value_eq_signed (decimal : BigDecimal) :
    decimal.value =
      signed (decide (decimal.digits < 0)) (decimal.digits.natAbs * (10 : ℚ) ^ (-decimal.scale)) := by
  have hcast : ((decimal.digits.natAbs : ℤ) : ℚ) = (decimal.digits.natAbs : ℚ) :=
    Int.cast_natCast _
  rw [BigDecimal.value, ← hcast, signed]
  by_cases h : decimal.digits < 0
  · rw [if_pos (decide_eq_true h), Int.ofNat_natAbs_of_nonpos h.le]
    push_cast
    ring
  · rw [if_neg (by rwa [decide_eq_true_eq]), Int.natAbs_of_nonneg (not_lt.mp h)]

/-- **The plain text** of a decimal is a numeral that denotes it.

**Proof sketch.** Without decimals, zeros are written behind the digits. Otherwise the point is
put before the last digits, and zeros before them if there are too few. -/
theorem plainString_spec (decimal : BigDecimal) :
    ∃ int frac, Numeral (bigdecimalToPlainString decimal) (decide (decimal.digits < 0)) int frac ∧
      decimal.value = signed (decide (decimal.digits < 0)) (magnitude int frac) := by
  rw [value_eq_signed, bigdecimalToPlainString]
  have hdigits := digits_toDigits decimal.digits.natAbs
  have hvalue := value_toDigits decimal.digits.natAbs
  have hne : Nat.toDigits 10 decimal.digits.natAbs ≠ [] := Nat.toDigits_ne_nil
  generalize Nat.toDigits 10 decimal.digits.natAbs = digits at hdigits hvalue hne ⊢
  rw [← hvalue, ite_minus]
  by_cases hscale : decimal.scale ≤ 0
  · obtain ⟨n, hn⟩ := Int.eq_ofNat_of_zero_le (neg_nonneg.mpr hscale)
    rw [if_pos hscale, hn]
    refine ⟨digits ++ List.replicate n '0', [], ⟨?_, ?_, ?_, ?_⟩, ?_⟩
    · exact List.append_ne_nil_of_left_ne_nil hne _
    · exact digits_append.mpr ⟨hdigits, Digits.replicate_zero n⟩
    · exact fun c hc => absurd hc List.not_mem_nil
    · rw [point, if_pos rfl, List.append_nil]
      rfl
    · rw [magnitude_nil, value_append_zeros]
      push_cast
      rfl
  · obtain ⟨n, hn⟩ := Int.eq_ofNat_of_zero_le (not_le.mp hscale).le
    rw [if_neg hscale, hn, zpow_neg]
    by_cases hlength : digits.length ≤ n
    · refine ⟨['0'], List.replicate (n - digits.length) '0' ++ digits, ⟨?_, ?_, ?_, ?_⟩, ?_⟩
      · exact List.cons_ne_nil _ _
      · exact Digits.replicate_zero 1
      · exact digits_append.mpr ⟨Digits.replicate_zero _, hdigits⟩
      · rw [point, if_neg (List.append_ne_nil_of_right_ne_nil _ hne)]
        show sign _ ++ (if digits.length ≤ n then _ else _) = _
        rw [if_pos hlength]
        rfl
      · have hzero : value ['0'] = 0 := rfl
        have htotal : (List.replicate (n - digits.length) '0' ++ digits).length = n := by
          rw [List.length_append, List.length_replicate]
          omega
        rw [magnitude, hzero, htotal, value_zeros_append, Nat.cast_zero, zero_add, div_eq_mul_inv]
        rfl
    · have hpos : 0 < n := by omega
      have hdrop : digits.drop (digits.length - n) ≠ [] := by
        rw [Ne, List.drop_eq_nil_iff]
        omega
      refine ⟨digits.take (digits.length - n), digits.drop (digits.length - n), ⟨?_, ?_, ?_, ?_⟩, ?_⟩
      · rw [Ne, List.take_eq_nil_iff, not_or]
        exact ⟨by omega, hne⟩
      · exact fun c hc => hdigits c (List.mem_of_mem_take hc)
      · exact fun c hc => hdigits c (List.mem_of_mem_drop hc)
      · rw [point, if_neg hdrop]
        show sign _ ++ (if digits.length ≤ n then _ else _) = _
        rw [if_neg hlength]
        rfl
      · have htotal : (digits.drop (digits.length - n)).length = n := by
          rw [List.length_drop]
          omega
        rw [magnitude, ← number_append, List.take_append_drop, number, htotal, div_eq_mul_inv]
        rfl

/-- Zeros behind the point are dropped up to it. -/
lemma rdropWhile_fraction (front : List Char) (frac : List Char) :
    (front ++ '.' :: frac).rdropWhile (· = '0') = front ++ '.' :: stripZeros frac := by
  induction frac using List.reverseRecOn with
  | nil => exact List.rdropWhile_concat_neg _ _ _ (by decide)
  | append_singleton frac c ih =>
    rw [← List.cons_append, ← List.append_assoc, stripZeros]
    by_cases hc : c = '0'
    · rw [List.rdropWhile_concat_pos _ _ _ (by simpa using hc),
        List.rdropWhile_concat_pos _ _ _ (by simpa using hc), ih, stripZeros]
    · rw [List.rdropWhile_concat_neg _ _ _ (by simpa using hc),
        List.rdropWhile_concat_neg _ _ _ (by simpa using hc), List.append_assoc]
      rfl

/-- Trailing zeros of the fraction, and a point without a fraction, are dropped. -/
theorem stripTrailingZeros_spec (h : Numeral text negative int frac) :
    Numeral (stripTrailingZeros text) negative int (stripZeros frac) := by
  have hdigits : Digits (stripZeros frac) := fun c hc =>
    h.frac_digits c ((List.rdropWhile_prefix _ _).subset hc)
  refine ⟨h.int_ne_nil, h.int_digits, hdigits, ?_⟩
  rw [stripTrailingZeros, h.form, ← List.append_assoc, ← List.append_assoc]
  by_cases hfrac : frac = []
  · have hpoint : '.' ∉ sign negative ++ int := fun hmem => by simpa using h.ne_point '.' hmem
    rw [hfrac, point, if_pos rfl, List.append_nil, if_pos hpoint]
    exact (List.append_nil _).symm
  · rw [point, if_neg hfrac, if_neg (by simp), rdropWhile_fraction]
    by_cases hzeros : stripZeros frac = []
    · rw [hzeros, point, if_pos rfl, if_pos List.getLast?_concat, List.dropLast_concat,
        List.append_nil]
    · have hlast : (sign negative ++ int ++ '.' :: stripZeros frac).getLast? ≠ some '.' := by
        rw [List.getLast?_append_cons, List.getLast?_cons_of_ne_nil hzeros]
        exact fun hlast => by simpa using hdigits '.' (List.mem_of_getLast? hlast)
      rw [if_neg hlast, point, if_neg hzeros]

lemma filter_flatMap_zipIdx (sep : Char) (p : ℕ → Prop) [DecidablePred p] (chars : List Char)
    (h : sep ∉ chars) (k : ℕ) :
    ((chars.zipIdx k).flatMap fun (ch, i) => if p i then [sep, ch] else [ch]).filter (· ≠ sep) =
      chars := by
  induction chars generalizing k with
  | nil => rfl
  | cons c chars ih =>
    rw [List.mem_cons, not_or] at h
    rw [List.zipIdx_cons, List.flatMap_cons, List.filter_append, ih h.2]
    by_cases hp : p k
    · simp [hp, Ne.symm h.1]
    · simp [hp, Ne.symm h.1]

/-- Separators are the only characters that are added. -/
lemma filter_formattedInteger (sep : Char) (chars : List Char) (h : sep ∉ chars) :
    (formattedInteger sep chars).filter (· ≠ sep) = chars :=
  filter_flatMap_zipIdx sep (fun i => 0 < i ∧ (chars.length - i) % 3 = 0) chars h 0

/-- A sign in front of digits is found. -/
lemma stripMinus_sign (hne : int ≠ []) (hdigits : Digits int) (rest : List Char) :
    stripMinus (sign negative ++ (int ++ rest)) = (negative, int ++ rest) := by
  cases negative
  · cases int with
    | nil => exact absurd rfl hne
    | cons c int =>
      have hc : c ≠ '-' := fun hc => by simpa [hc] using hdigits c List.mem_cons_self
      show stripMinus (c :: (int ++ rest)) = _
      unfold stripMinus
      split
      · rename_i heq
        exact absurd (List.cons.inj heq).1 hc
      · rfl
  · rfl

/-- **Removing the separators** gives the numeral back. -/
theorem filter_applyThousandsSeparator (h : Numeral text negative int frac) :
    (applyThousandsSeparator text).filter (· ≠ ',') = text := by
  have hint : (formattedInteger ',' int).filter (· ≠ ',') = int :=
    filter_formattedInteger ',' int (h.int_digits.ne_of_not_isDigit rfl)
  have hsign : (sign negative).filter (· ≠ ',') = sign negative := by
    cases negative
    · rfl
    · rfl
  have hminus := @stripMinus_sign int negative h.int_ne_nil h.int_digits []
  have hform := h.form
  rw [List.append_nil] at hminus
  rw [applyThousandsSeparator, addThousandsSeparator, h.splitOnce_eq]
  cases frac with
  | nil =>
    rw [point, if_pos rfl, List.append_nil] at hform
    rw [if_pos rfl, hform]
    show List.filter _ (sign (stripMinus (sign negative ++ int)).1 ++
      formattedInteger ',' (stripMinus (sign negative ++ int)).2) = _
    rw [hminus, List.filter_append, hsign, hint]
  | cons c frac =>
    rw [point, if_neg (List.cons_ne_nil _ _)] at hform
    have hfrac : ('.' :: c :: frac).filter (· ≠ ',') = '.' :: c :: frac := by
      refine List.filter_eq_self.mpr fun d hd => ?_
      have hne := h.not_mem (c := ',') rfl (by decide) (by decide)
      rw [hform, List.mem_append, List.mem_append, not_or, not_or] at hne
      exact decide_eq_true fun hcomma => hne.2.2 (hcomma ▸ hd)
    rw [if_neg (List.cons_ne_nil _ _), hform]
    show List.filter _ (sign (stripMinus (sign negative ++ int)).1 ++
      formattedInteger ',' (stripMinus (sign negative ++ int)).2 ++ '.' :: c :: frac) = _
    rw [hminus, List.filter_append, List.filter_append, hsign, hint, hfrac, List.append_assoc]

/-! ## The full style -/

variable {lib : NumberLib}

/-- **The full style**, without separators, is a numeral of the amount. -/
theorem formatFull_spec (decimal : BigDecimal) :
    IsNumeral ((formatFull lib decimal).filter (· ≠ ',')) decimal.value := by
  obtain ⟨int, frac, hnumeral, hvalue⟩ := plainString_spec (lib.normalized decimal)
  have hstrip := stripTrailingZeros_spec hnumeral
  rw [formatFull, filter_applyThousandsSeparator hstrip, ← lib.value_normalized, hvalue,
    ← magnitude_stripZeros]
  exact hstrip.isNumeral

/-! ## The short styles -/

/-- **A shortened amount** has the sign of the amount and never a larger magnitude; it is less than
0.01 away from an amount of at least one, and less than a thousandth of the amount away from a
smaller one; it is zero only for zero. -/
structure Shortened (amount shown : ℚ) : Prop where
  pos : 0 < shown ↔ 0 < amount
  neg : shown < 0 ↔ amount < 0
  le : |shown| ≤ |amount|
  near : 1 ≤ |amount| → |amount - shown| < 1 / 100
  close : amount ≠ 0 → |amount| < 1 → |amount - shown| < |amount| / 1000
  zero : shown = 0 ↔ amount = 0

lemma Shortened.refl (amount : ℚ) : Shortened amount amount where
  pos := Iff.rfl
  neg := Iff.rfl
  le := le_rfl
  near _ := by
    rw [sub_self, abs_zero]
    norm_num
  close hne _ := by
    rw [sub_self, abs_zero]
    exact div_pos (abs_pos.mpr hne) (by norm_num)
  zero := Iff.rfl

/-- An amount is shortened when its magnitude is. -/
lemma shortened_signed (negative : Bool) {a b : ℚ} (hpos : 0 < b) (hle : b ≤ a)
    (hnear : 1 ≤ a → a - b < 1 / 100) (hclose : a < 1 → a - b < a / 1000) :
    Shortened (signed negative a) (signed negative b) := by
  have ha : 0 < a := hpos.trans_le hle
  have hsub : signed negative a - signed negative b = signed negative (a - b) := by
    cases negative
    · rfl
    · exact (neg_sub_neg a b).trans (neg_sub a b).symm
  refine ⟨?_, ?_, ?_, ?_, ?_, ?_⟩
  · cases negative
    · exact iff_of_true hpos ha
    · exact iff_of_false (neg_neg_of_pos hpos).not_gt (neg_neg_of_pos ha).not_gt
  · cases negative
    · exact iff_of_false hpos.not_gt ha.not_gt
    · exact iff_of_true (neg_neg_of_pos hpos) (neg_neg_of_pos ha)
  · rwa [abs_signed hpos.le, abs_signed ha.le]
  · rw [hsub, abs_signed ha.le, abs_signed (sub_nonneg.mpr hle)]
    exact hnear
  · rw [hsub, abs_signed ha.le, abs_signed (sub_nonneg.mpr hle)]
    exact fun _ => hclose
  · rw [signed_eq_zero, signed_eq_zero]
    exact iff_of_false hpos.ne' ha.ne'

/-- **Two decimals** of an amount of at least one. -/
theorem formatShort_spec (decimal : BigDecimal) (h : 1 ≤ |decimal.value|) :
    ∃ shown, IsNumeral ((formatShort decimal).filter (· ≠ ',')) shown ∧
      Shortened decimal.value shown := by
  obtain ⟨int, frac, hnumeral, hvalue⟩ := plainString_spec decimal
  rw [hvalue, abs_signed (magnitude_nonneg int frac)] at h
  have hcut : (if 2 < frac.length then frac.take 2 else frac) = frac.take 2 := by
    by_cases hlength : 2 < frac.length
    · rw [if_pos hlength]
    · rw [if_neg hlength, List.take_of_length_le (not_lt.mp hlength)]
  have hdigits : Digits (frac.take 2) := fun c hc => hnumeral.frac_digits c (List.mem_of_mem_take hc)
  have hne : (frac.take 2).rightpad 2 '0' ≠ [] := by
    refine List.ne_nil_of_length_pos ?_
    rw [List.length_rightpad]
    omega
  have hshown : Numeral (sign (decide (decimal.digits < 0)) ++ int ++
      '.' :: (frac.take 2).rightpad 2 '0') (decide (decimal.digits < 0)) int
      ((frac.take 2).rightpad 2 '0') := by
    refine ⟨hnumeral.int_ne_nil, hnumeral.int_digits, ?_, ?_⟩
    · exact digits_append.mpr ⟨hdigits, Digits.replicate_zero _⟩
    · rw [point, if_neg hne, List.append_assoc]
  obtain ⟨hle, hlt⟩ := magnitude_take int hnumeral.frac_digits 2
  have hmagnitude : magnitude int ((frac.take 2).rightpad 2 '0') = magnitude int (frac.take 2) :=
    magnitude_append_zeros int _ _
  refine ⟨signed (decide (decimal.digits < 0))
    (magnitude int ((frac.take 2).rightpad 2 '0')), ?_, ?_⟩
  · rw [formatShort, hnumeral.split_eq]
    show IsNumeral ((applyThousandsSeparator (sign (decide (decimal.digits < 0)) ++ int ++
      '.' :: (if 2 < frac.length then frac.take 2 else frac).rightpad 2 '0')).filter _) _
    rw [hcut, filter_applyThousandsSeparator hshown]
    exact hshown.isNumeral
  · rw [hvalue, hmagnitude]
    refine shortened_signed _ (by linarith) hle (fun _ => by linarith) (fun hsmall => ?_)
    exact absurd h (not_le.mpr hsmall)

/-- **Four significant digits** of an amount below one. -/
theorem formatMiddle_spec (decimal : BigDecimal) (hne : decimal.value ≠ 0)
    (h : |decimal.value| < 1) :
    ∃ shown, IsNumeral ((formatMiddle lib decimal).filter (· ≠ ',')) shown ∧
      Shortened decimal.value shown := by
  obtain ⟨int, frac, hnumeral, hvalue⟩ := plainString_spec (lib.normalized decimal)
  rw [← lib.value_normalized, hvalue] at hne h ⊢
  generalize decide ((lib.normalized decimal).digits < 0) = negative at hnumeral hne h ⊢
  have hdigits := hnumeral.frac_digits
  rw [Ne, signed_eq_zero] at hne
  rw [abs_signed (magnitude_nonneg int frac)] at h
  -- below one there is no integer part, so that some digit of the fraction is not zero
  have hint : value int = 0 := by
    have hle : (value int : ℚ) ≤ magnitude int frac := le_add_of_nonneg_right (by positivity)
    exact_mod_cast Nat.lt_one_iff.mp (by exact_mod_cast hle.trans_lt h)
  have hzero : magnitude int frac = magnitude ['0'] frac := by
    have hvalue : value ['0'] = 0 := rfl
    rw [magnitude, magnitude, hint, hvalue]
  rw [hzero] at hne h ⊢
  have hsome : ∃ c ∈ frac, c ≠ '0' := by
    by_contra hall
    push Not at hall
    refine hne ?_
    have hvalue : value ['0'] = 0 := rfl
    rw [List.eq_replicate_length.mpr hall, magnitude, hvalue, value_replicate_zero]
    simp
  have hlarge := le_magnitude_of_ne_zero ['0'] hdigits hsome
  have hsig : truncateSignificant (bigdecimalToPlainString (lib.normalized decimal)) 4 =
      sign negative ++
        ('0' :: '.' :: frac.take ((frac.takeWhile (· = '0')).length + 4)) := by
    have habs : Numeral (int ++ point frac) false int frac :=
      ⟨hnumeral.int_ne_nil, hnumeral.int_digits, hdigits, rfl⟩
    rw [truncateSignificant, hnumeral.form, stripMinus_sign hnumeral.int_ne_nil hnumeral.int_digits]
    show sign negative ++ ('0' :: '.' :: ((Lib.splitOnce _ _).getD _).2.take _) = _
    rw [habs.split_eq, ← List.take_eq_take_min]
  generalize (frac.takeWhile (· = '0')).length = zeros at hlarge hsig
  obtain ⟨hle, hlt⟩ := magnitude_take ['0'] hdigits (zeros + 4)
  have hne' : frac.take (zeros + 4) ≠ [] := by
    obtain ⟨c, hc, -⟩ := hsome
    rw [Ne, List.take_eq_nil_iff, not_or]
    exact ⟨by omega, List.ne_nil_of_mem hc⟩
  have hshown : Numeral (truncateSignificant
      (bigdecimalToPlainString (lib.normalized decimal)) 4) negative ['0']
      (frac.take (zeros + 4)) := by
    refine ⟨List.cons_ne_nil _ _, Digits.replicate_zero 1,
      fun c hc => hdigits c (List.mem_of_mem_take hc), ?_⟩
    rw [hsig, point, if_neg hne']
    rfl
  have hcomma : (formatMiddle lib decimal).filter (· ≠ ',') = formatMiddle lib decimal := by
    refine List.filter_eq_self.mpr fun c hc => decide_eq_true fun hcomma => ?_
    exact hshown.not_mem (c := ',') rfl (by decide) (by decide) (hcomma ▸ hc)
  have hthousandth : (1 : ℚ) / 10 ^ (zeros + 4) = 1 / 10 ^ (zeros + 1) / 1000 := by
    rw [pow_add, pow_add]
    field_simp
    norm_num
  refine ⟨signed negative (magnitude ['0'] (frac.take (zeros + 4))), ?_, ?_⟩
  · rw [hcomma]
    exact hshown.isNumeral
  · have hpos : (0 : ℚ) < 1 / 10 ^ (zeros + 1) := by positivity
    refine shortened_signed _ (by linarith) hle (fun hone => ?_) (fun _ => by linarith)
    exact absurd h (not_lt.mpr hone)

/-- **The short style**: a numeral that shortens the amount. -/
theorem formatAuto_spec (decimal : BigDecimal) :
    ∃ shown, IsNumeral ((formatAuto lib decimal).filter (· ≠ ',')) shown ∧
      Shortened decimal.value shown := by
  have hten : (10 : ℚ) ^ (-decimal.scale) ≠ 0 := zpow_ne_zero _ (by norm_num)
  rw [formatAuto]
  by_cases hzero : decimal.digits = 0
  · have hvalue : decimal.value = 0 := by
      rw [BigDecimal.value, hzero, Int.cast_zero, zero_mul]
    have hnumeral : Numeral ['0'] false ['0'] [] :=
      ⟨List.cons_ne_nil _ _, Digits.replicate_zero 1, fun c hc => absurd hc List.not_mem_nil, rfl⟩
    have hnumber : signed false (magnitude ['0'] []) = 0 := by
      rw [signed_eq_zero, magnitude_nil]
      rfl
    rw [if_pos hzero, hvalue]
    exact ⟨0, hnumber ▸ hnumeral.isNumeral, Shortened.refl 0⟩
  · rw [if_neg hzero]
    by_cases hone : 1 ≤ |decimal.value|
    · rw [if_pos hone]
      exact formatShort_spec decimal hone
    · rw [if_neg hone]
      by_cases hthreshold : threshold.value ≤ |decimal.value|
      · rw [if_pos hthreshold]
        refine formatMiddle_spec decimal ?_ (not_le.mp hone)
        exact mul_ne_zero (by exact_mod_cast hzero) hten
      · rw [if_neg hthreshold]
        exact ⟨_, formatFull_spec decimal, Shortened.refl _⟩

/-! ## Displayed amounts -/

/-- **Displayed amounts are faithful.** The full style of an integer is, without separators, a
numeral of exactly its amount, from which the integer is read back when it is not negative; the
short style shortens the amount. The integer of a nonnegative decimal is rounded down. -/
theorem displayed_spec (hlib : lib.Documented) :
    (∀ (text : List Char) (value decimals : ℤ), IsNumeral text value → |value| < 2 ^ 256 →
      0 ≤ decimals → decimals ≤ 36 →
      (∃ full, format lib .full (String.ofList text) decimals = .ok (String.ofList full) ∧
        IsNumeral (full.filter (· ≠ ',')) (value / 10 ^ decimals.toNat) ∧
        (0 ≤ value → valueFromAmountExact lib (String.ofList (full.filter (· ≠ ',')))
          decimals.toNat = .ok value.toNat)) ∧
      ∃ auto shown, format lib .auto (String.ofList text) decimals = .ok (String.ofList auto) ∧
        IsNumeral (auto.filter (· ≠ ',')) shown ∧
        Shortened (value / 10 ^ decimals.toNat) shown) ∧
    ∀ (text : List Char) (amount : ℚ) (decimals : ℕ), IsNumeral text amount → 0 ≤ amount →
      Short amount →
      valueFromAmountTruncated lib (String.ofList text) decimals =
        .ok (String.ofList (intText ⌊amount * 10 ^ decimals⌋)) := by
  refine ⟨fun text value decimals h hvalue hnonneg hle => ?_, fun text amount decimals h hnonneg
    hshort => valueFromAmountTruncated_spec hlib h hnonneg hshort decimals⟩
  have hbound : value.natAbs < 10 ^ 100 := by
    have hlt : value.natAbs < 2 ^ 256 := by
      rw [← Int.natCast_natAbs] at hvalue
      exact_mod_cast hvalue
    exact hlt.trans (by norm_num)
  have hdecimals : asU32 decimals = decimals.toNat := by
    rw [asU32, Int.emod_eq_of_lt hnonneg (by omega)]
  obtain ⟨d, hd, hamount⟩ := bigDecimalValue_spec hlib h hbound decimals.toNat
  have hrun : ∀ style, format lib style (String.ofList text) decimals =
      match style with
      | .full => .ok (String.ofList (formatFull lib d))
      | .auto => .ok (String.ofList (formatAuto lib d)) := by
    intro style
    rw [format, hdecimals, hd]
    rfl
  constructor
  · have hnumeral := @formatFull_spec lib d
    rw [hamount] at hnumeral
    refine ⟨formatFull lib d, hrun .full, hnumeral, fun hpos => ?_⟩
    obtain ⟨n, rfl⟩ := Int.eq_ofNat_of_zero_le hpos
    rw [Int.natAbs_natCast] at hbound
    rw [Int.cast_natCast] at hnumeral
    exact valueFromAmountExact_spec hlib hbound hnumeral
  · obtain ⟨shown, hshown, hshort⟩ := @formatAuto_spec lib d
    rw [hamount] at hshort
    exact ⟨formatAuto lib d, shown, hrun .auto, hshown, hshort⟩

/-! ## A decimal library -/

/-- Read a numeral. -/
def readNumeral (text : List Char) : Option BigDecimal :=
  let (negative, abs) := stripMinus text
  let (int, frac) := (Lib.splitOnce (· = '.') abs).getD (abs, [])
  if int ≠ [] ∧ (int ++ frac).all Char.isDigit then
    some ⟨if negative then -value (int ++ frac) else value (int ++ frac), frac.length⟩
  else none

/-- Read a natural number. -/
def readNat (text : List Char) : Option ℕ :=
  if text ≠ [] ∧ text.all Char.isDigit then some (value text) else none

/-- Cut the decimals of a number. -/
def cutDecimals (decimal : BigDecimal) (scale : ℤ) : BigDecimal :=
  ⟨⌊decimal.value * (10 : ℚ) ^ scale⌋, scale⟩

/-- A decimal library that divides by powers of ten. -/
def sampleNumberLib : NumberLib where
  toDecimalLib := Xrp.referenceLib
  fromStr text :=
    match readNumeral text.toList with
    | some decimal => .ok decimal
    | none => .error "invalid digit found in string"
  toText decimal := String.ofList (bigdecimalToPlainString decimal)
  div decimal divisor := ⟨decimal.digits, decimal.scale + Nat.log 10 divisor.digits.natAbs⟩
  mul decimal decimal' := ⟨decimal.digits * decimal'.digits, decimal.scale + decimal'.scale⟩
  isInteger decimal := decide (decimal.value.den = 1)
  withScale := cutDecimals
  withScaleRoundDown := cutDecimals
  parseBigUint text := readNat text.toList

lemma readNumeral_of_numeral (h : Numeral text negative int frac) :
    ∃ decimal, readNumeral text = some decimal ∧
      decimal.value = signed negative (magnitude int frac) := by
  have habs : Numeral (int ++ point frac) false int frac :=
    ⟨h.int_ne_nil, h.int_digits, h.frac_digits, rfl⟩
  have hall : (int ++ frac).all Char.isDigit = true :=
    (digits_append.mpr ⟨h.int_digits, h.frac_digits⟩).all
  refine ⟨⟨if negative then -value (int ++ frac) else value (int ++ frac), frac.length⟩, ?_, ?_⟩
  · rw [readNumeral, h.form, stripMinus_sign h.int_ne_nil h.int_digits]
    simp only [habs.split_eq]
    exact if_pos ⟨h.int_ne_nil, hall⟩
  · rw [value_mk_natCast, magnitude, ← number_append, number, signed]
    cases negative
    · simp
    · simp [neg_div]

lemma sampleNumberLib_documented : sampleNumberLib.Documented where
  fromStr text q h _ := by
    obtain ⟨negative, int, frac, hnumeral, rfl⟩ := h
    obtain ⟨decimal, hread, hvalue⟩ := readNumeral_of_numeral hnumeral
    refine ⟨decimal, ?_, hvalue⟩
    show (match readNumeral (String.ofList text).toList with
      | some decimal => Except.ok decimal
      | none => Except.error _) = _
    rw [String.toList_ofList, hread]
  fromStr_toText d _ := by
    obtain ⟨int, frac, hnumeral, hplain⟩ := plainString_spec d
    obtain ⟨decimal, hread, hvalue⟩ := readNumeral_of_numeral hnumeral
    refine ⟨decimal, ?_, hvalue.trans hplain.symm⟩
    show (match readNumeral (String.ofList (bigdecimalToPlainString d)).toList with
      | some decimal => Except.ok decimal
      | none => Except.error _) = _
    rw [String.toList_ofList, hread]
  toText n := by
    have hplain : bigdecimalToPlainString ⟨n, 0⟩ = intText n := by
      show (if n < 0 then '-' :: (Nat.toDigits 10 n.natAbs ++ []) else
        Nat.toDigits 10 n.natAbs ++ []) = _
      rw [ite_minus, List.append_nil, intText]
    exact congrArg String.ofList hplain
  div d k _ := by
    have hlog : Nat.log 10 (10 ^ k : ℤ).natAbs = k := by
      rw [Int.natAbs_pow]
      exact Nat.log_pow (by norm_num) k
    show BigDecimal.value ⟨d.digits, d.scale + Nat.log 10 (10 ^ k : ℤ).natAbs⟩ = _
    rw [hlog, BigDecimal.value, BigDecimal.value, neg_add, zpow_add₀ (by norm_num), zpow_neg _ (k : ℤ),
      zpow_natCast, ← mul_assoc, div_eq_mul_inv]
  mul d d' := by
    show BigDecimal.value ⟨d.digits * d'.digits, d.scale + d'.scale⟩ = _
    rw [BigDecimal.value, BigDecimal.value, BigDecimal.value, neg_add, zpow_add₀ (by norm_num)]
    push_cast
    ring
  isInteger d := by
    show decide (d.value.den = 1) = true ↔ _
    rw [decide_eq_true_eq]
    constructor
    · intro h
      exact ⟨d.value.num, ((Rat.den_eq_one_iff _).mp h).symm⟩
    · rintro ⟨n, hn⟩
      rw [hn]
      exact Rat.den_intCast n
  withScale d n h := by
    show (⟨⌊d.value * (10 : ℚ) ^ (0 : ℤ)⌋, 0⟩ : BigDecimal) = _
    rw [zpow_zero, mul_one, h, Int.floor_intCast]
  withScaleRoundDown d k _ := by
    show (⟨⌊d.value * (10 : ℚ) ^ (k : ℤ)⌋, k⟩ : BigDecimal) = _
    rw [zpow_natCast]
  parseBigUint n := by
    show readNat (String.ofList (Nat.toDigits 10 n)).toList = some n
    rw [String.toList_ofList, readNat,
      if_pos ⟨Nat.toDigits_ne_nil, (digits_toDigits n).all⟩, value_toDigits]

/-- The amount of 1,234.567 at three decimals, in full and short. -/
theorem displayed_spec_sample :
    format sampleNumberLib .full (String.ofList "1234567".toList) 3 =
        .ok (String.ofList "1,234.567".toList) ∧
      IsNumeral "1234.567".toList (1234567 / 10 ^ 3) ∧
      valueFromAmountExact sampleNumberLib (String.ofList "1234.567".toList) 3 = .ok 1234567 ∧
      ∃ shown, IsNumeral "1234.56".toList shown ∧ Shortened (1234567 / 10 ^ 3) shown := by
  have hnumeral : Numeral "1234567".toList false "1234567".toList [] :=
    ⟨by decide, List.all_eq_true.mp (by decide), fun c hc => absurd hc List.not_mem_nil, by decide⟩
  have htext : IsNumeral "1234567".toList (1234567 : ℤ) := by
    have hvalue : value "1234567".toList = 1234567 := by decide
    refine ⟨false, _, [], hnumeral, ?_⟩
    rw [magnitude_nil, hvalue]
    norm_num [signed]
  have hread : sampleNumberLib.fromStr (String.ofList "1234567".toList) = .ok ⟨1234567, 0⟩ := by
    show (match readNumeral (String.ofList "1234567".toList).toList with
      | some decimal => Except.ok decimal
      | none => Except.error "invalid digit found in string") = _
    rw [String.toList_ofList]
    decide
  obtain ⟨⟨full, hfull, hdenotes, hexact⟩, auto, shown, hauto, hdenotes', hshort⟩ :=
    (displayed_spec sampleNumberLib_documented).1 "1234567".toList 1234567 3 htext (by norm_num)
      (by norm_num) (by norm_num)
  have hrun : ∀ style, format sampleNumberLib style (String.ofList "1234567".toList) 3 =
      match style with
      | .full => .ok (String.ofList (formatFull sampleNumberLib ⟨1234567, 3⟩))
      | .auto => .ok (String.ofList (formatAuto sampleNumberLib ⟨1234567, 3⟩)) := by
    intro style
    rw [format, bigDecimalValue, hread]
    cases style
    · rfl
    · rfl
  have hfullText : formatFull sampleNumberLib ⟨1234567, 3⟩ = "1,234.567".toList := by
    decide +kernel
  have hautoText : formatAuto sampleNumberLib ⟨1234567, 3⟩ = "1,234.56".toList := by
    decide +kernel
  have hfull' := Except.ok.inj (hfull.symm.trans (hrun .full))
  have hauto' := Except.ok.inj (hauto.symm.trans (hrun .auto))
  rw [hfullText] at hfull'
  rw [hautoText] at hauto'
  obtain rfl := String.ofList_injective hfull'
  obtain rfl := String.ofList_injective hauto'
  have hcast : ((1234567 : ℤ) : ℚ) = 1234567 := by norm_num
  rw [hcast] at hdenotes hshort
  exact ⟨hfull, hdenotes, hexact (by norm_num), shown, hdenotes', hshort⟩

end GemCore.NumberFormatter
