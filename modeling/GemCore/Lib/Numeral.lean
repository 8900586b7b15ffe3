import GemCore.Lib.Decimal
import Mathlib.Tactic.Linarith
import Mathlib.Tactic.Positivity

/-!
# Decimal numerals

A numeral is written with an optional minus sign, at least one digit, and a point with further
digits if there are any. Cutting its fraction loses less than one unit of the last digit that is
left.

## Main definitions

* `magnitude` — the number of an integer part and a fraction.
* `Numeral`, `IsNumeral` — the parts of a numeral, and the number it denotes.

## Main results

* `magnitude_take` — what cutting the fraction loses.
* `Numeral.splitOnce_eq` — the parts of a numeral are found by splitting it.
-/

namespace Lib.Decimal

/-! ## Magnitudes -/

/-- The number of an integer part and a fraction. -/
def magnitude (int frac : List Char) : ℚ := value int + value frac / 10 ^ frac.length

lemma magnitude_nonneg (int frac : List Char) : 0 ≤ magnitude int frac := by
  rw [magnitude]
  positivity

@[simp] lemma magnitude_nil (int : List Char) : magnitude int [] = value int := by
  rw [magnitude, value_nil, Nat.cast_zero, zero_div, add_zero]

/-- As many digits as there are write less than that power of ten. -/
lemma value_lt {digits : List Char} (h : Digits digits) : value digits < 10 ^ digits.length := by
  induction digits using List.reverseRecOn with
  | nil => exact Nat.one_pos
  | append_singleton digits c ih =>
    obtain ⟨hdigits, hc⟩ := digits_append.mp h
    have hvalue : value [c] = c.toNat - 48 := by
      simp [value, Nat.ofDigitChars_cons]
    have hdigit : c.toNat ≤ 57 := by
      have hdigit := hc c (List.mem_singleton.mpr rfl)
      simp only [Char.isDigit, Bool.and_eq_true, decide_eq_true_eq] at hdigit
      exact hdigit.2
    have hlt := ih hdigits
    rw [value_append, hvalue, List.length_append, List.length_singleton, pow_add]
    omega

/-- Zeros behind a fraction do not count. -/
lemma magnitude_append_zeros (int frac : List Char) (n : ℕ) :
    magnitude int (frac ++ List.replicate n '0') = magnitude int frac := by
  rw [magnitude, magnitude, value_append_zeros, List.length_append, List.length_replicate, pow_add]
  push_cast
  rw [mul_div_mul_right _ _ (by positivity)]

lemma magnitude_stripZeros (int frac : List Char) :
    magnitude int (stripZeros frac) = magnitude int frac := by
  rw [magnitude, magnitude, value_stripZeros_div]

/-- **Cutting the fraction** loses less than one unit of the last digit that is left. -/
theorem magnitude_take (int : List Char) {frac : List Char} (h : Digits frac) (k : ℕ) :
    magnitude int (frac.take k) ≤ magnitude int frac ∧
      magnitude int frac < magnitude int (frac.take k) + 1 / 10 ^ k := by
  rcases le_or_gt frac.length k with hle | hgt
  · rw [List.take_of_length_le hle]
    exact ⟨le_rfl, lt_add_of_pos_right _ (by positivity)⟩
  · have hlength : (frac.take k).length = k := by
      rw [List.length_take]
      omega
    have hsplit : value frac =
        value (frac.take k) * 10 ^ (frac.drop k).length + value (frac.drop k) := by
      rw [← value_append, List.take_append_drop]
    have htotal : frac.length = k + (frac.drop k).length := by
      rw [List.length_drop]
      omega
    have hlt : (value (frac.drop k) : ℚ) < 10 ^ (frac.drop k).length := by
      exact_mod_cast value_lt fun c hc => h c (List.mem_of_mem_drop hc)
    have hexact : magnitude int frac = magnitude int (frac.take k) +
        value (frac.drop k) / 10 ^ (frac.drop k).length / 10 ^ k := by
      rw [magnitude, magnitude, hlength, hsplit, htotal, pow_add]
      push_cast
      field_simp
      ring
    have hpart : (value (frac.drop k) : ℚ) / 10 ^ (frac.drop k).length < 1 :=
      (div_lt_one (by positivity)).mpr hlt
    rw [hexact]
    constructor
    · exact le_add_of_nonneg_right (by positivity)
    · exact add_lt_add_right (div_lt_div_of_pos_right hpart (by positivity)) _

/-- The digit of a character that is not a zero. -/
lemma one_le_value_of_ne_zero {c : Char} (hc : c.isDigit = true) (hzero : c ≠ '0') :
    1 ≤ value [c] := by
  have hndvd := not_ten_dvd_value (a := []) hc hzero
  rw [List.nil_append] at hndvd
  exact Nat.one_le_iff_ne_zero.mpr fun h => hndvd (h ▸ dvd_zero 10)

/-- A fraction of which not all digits are zeros is at least one unit of its first digit that is
none. -/
theorem le_magnitude_of_ne_zero (int : List Char) {frac : List Char} (h : Digits frac)
    (hne : ∃ c ∈ frac, c ≠ '0') :
    1 / 10 ^ ((frac.takeWhile (· = '0')).length + 1) ≤ magnitude int frac := by
  have hsplit := List.takeWhile_append_dropWhile (p := (· = '0')) (l := frac)
  cases hrest : frac.dropWhile (· = '0') with
  | nil =>
    obtain ⟨c, hc, hzero⟩ := hne
    exact absurd (by simpa using List.dropWhile_eq_nil_iff.mp hrest c hc) hzero
  | cons c rest =>
    have hhead := List.head_dropWhile_not (· = '0') (by rw [hrest]; exact List.cons_ne_nil _ _)
    simp only [hrest, List.head_cons, decide_eq_false_iff_not] at hhead
    have hzeros : frac.takeWhile (· = '0') =
        List.replicate (frac.takeWhile (· = '0')).length '0' :=
      List.eq_replicate_length.mpr fun c hc => by simpa using List.mem_takeWhile_imp hc
    generalize (frac.takeWhile (· = '0')).length = n at hzeros ⊢
    rw [hzeros, hrest] at hsplit
    have hdigit : c.isDigit = true := h c (by simp [← hsplit])
    have hvalue : 10 ^ rest.length ≤ value frac := by
      rw [← hsplit, value_zeros_append, ← List.singleton_append, value_append]
      have hone := Nat.mul_le_mul_right (10 ^ rest.length) (one_le_value_of_ne_zero hdigit hhead)
      omega
    have hlength : frac.length = n + 1 + rest.length := by
      rw [← hsplit, List.length_append, List.length_replicate, List.length_cons]
      omega
    have hvalue' : (10 : ℚ) ^ rest.length ≤ value frac := by exact_mod_cast hvalue
    calc (1 : ℚ) / 10 ^ (n + 1) = 10 ^ rest.length / 10 ^ frac.length := by
          rw [hlength, pow_add _ (n + 1)]
          field_simp
      _ ≤ value frac / 10 ^ frac.length := by gcongr
      _ ≤ magnitude int frac := le_add_of_nonneg_left (Nat.cast_nonneg _)

/-! ## Numerals -/

/-- The sign of a numeral. -/
def sign (negative : Bool) : List Char := if negative then ['-'] else []

/-- The fraction of a numeral with its point, which an empty fraction does not have. -/
def point (frac : List Char) : List Char := if frac = [] then [] else '.' :: frac

/-- A number with a sign. -/
def signed (negative : Bool) (q : ℚ) : ℚ := if negative then -q else q

/-- The parts of a numeral. -/
structure Numeral (text : List Char) (negative : Bool) (int frac : List Char) : Prop where
  int_ne_nil : int ≠ []
  int_digits : Digits int
  frac_digits : Digits frac
  form : text = sign negative ++ (int ++ point frac)

/-- A text is a numeral that denotes a number. -/
def IsNumeral (text : List Char) (q : ℚ) : Prop :=
  ∃ negative int frac, Numeral text negative int frac ∧ q = signed negative (magnitude int frac)

variable {text int frac : List Char} {negative : Bool} {q : ℚ}

@[simp] lemma signed_eq_zero : signed negative q = 0 ↔ q = 0 := by
  cases negative
  · exact Iff.rfl
  · exact neg_eq_zero

@[simp] lemma abs_signed (h : 0 ≤ q) : |signed negative q| = q := by
  cases negative
  · exact abs_of_nonneg h
  · exact (abs_neg q).trans (abs_of_nonneg h)

lemma Numeral.isNumeral (h : Numeral text negative int frac) :
    IsNumeral text (signed negative (magnitude int frac)) := ⟨negative, int, frac, h, rfl⟩

/-- A text of digits has no character that is not a digit. -/
lemma Digits.ne_of_not_isDigit {c : Char} (h : Digits int) (hc : c.isDigit = false) :
    c ∉ int := fun hmem => by simp [h c hmem] at hc

/-- A numeral consists of digits, a minus sign and a point. -/
lemma Numeral.not_mem (h : Numeral text negative int frac) {c : Char}
    (hdigit : c.isDigit = false) (hminus : c ≠ '-') (hpoint : c ≠ '.') : c ∉ text := by
  have hsign : c ∉ sign negative := by
    cases negative
    · exact List.not_mem_nil
    · exact fun hmem => hminus (List.mem_singleton.mp hmem)
  have hfrac : c ∉ point frac := by
    rw [point]
    split
    · exact List.not_mem_nil
    · rw [List.mem_cons, not_or]
      exact ⟨hpoint, h.frac_digits.ne_of_not_isDigit hdigit⟩
  rw [h.form, List.mem_append, List.mem_append, not_or, not_or]
  exact ⟨hsign, h.int_digits.ne_of_not_isDigit hdigit, hfrac⟩

/-- The part of a numeral before its point has none. -/
lemma Numeral.ne_point (h : Numeral text negative int frac) :
    ∀ c ∈ sign negative ++ int, decide (c = '.') = false := by
  intro c hc
  rcases List.mem_append.mp hc with hc | hc
  · cases negative
    · exact absurd hc List.not_mem_nil
    · rw [List.mem_singleton.mp hc]
      rfl
  · exact h.int_digits.ne_point c hc

/-- **The parts of a numeral** are what is before and behind its point. -/
theorem Numeral.splitOnce_eq (h : Numeral text negative int frac) :
    splitOnce (· = '.') text =
      if frac = [] then none else some (sign negative ++ int, frac) := by
  rw [h.form, ← List.append_assoc]
  by_cases hfrac : frac = []
  · rw [if_pos hfrac, point, if_pos hfrac, List.append_nil]
    exact splitOnce_eq_none h.ne_point
  · rw [if_neg hfrac, point, if_neg hfrac]
    exact splitOnce_append h.ne_point (by decide)

/-- Without a point, the fraction is empty. -/
lemma Numeral.split_eq (h : Numeral text negative int frac) :
    (splitOnce (· = '.') text).getD (text, []) = (sign negative ++ int, frac) := by
  rw [h.splitOnce_eq]
  by_cases hfrac : frac = []
  · rw [if_pos hfrac, h.form, hfrac, point, if_pos rfl, List.append_nil]
    rfl
  · rw [if_neg hfrac]
    rfl

end Lib.Decimal
