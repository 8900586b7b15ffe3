import Mathlib.Data.List.DropRight
import Mathlib.Tactic.FieldSimp
import Mathlib.Tactic.NormNum
import Mathlib.Tactic.Ring

/-!
# Decimal texts

Numbers written with decimal digits, a point and an exponent of ten, and the number such a text
denotes.

## Main definitions

* `splitOnce` — the parts of a list before and behind the first separator.
* `Decimal.value` — the number of a text of digits.
* `Decimal.Plain` — a text is an integer part and a fraction.
* `Decimal.Denotes`, `Decimal.DenotesScaled` — the number of a text without and with an exponent.
* `Decimal.trailingZeros` — how many zeros a text of digits ends in.

## Main results

* `Decimal.plain_iff` — the parts of a text are found by splitting it.
* `Decimal.exists_units_iff` — a decimal is a multiple of a power of ten exactly when it has few
  enough decimals before its trailing zeros.
-/

namespace Lib

/-! ## Splitting -/

/-- The parts before and behind the first element that satisfies `p`. -/
def splitOnce {α : Type} (p : α → Bool) (l : List α) : Option (List α × List α) :=
  match l.span (fun x => !p x) with
  | (_, []) => none
  | (before, _ :: after) => some (before, after)

/-- A list is split at the first separator. -/
lemma splitOnce_append {α : Type} {p : α → Bool} {before after : List α} {x : α}
    (hbefore : ∀ y ∈ before, p y = false) (hx : p x = true) :
    splitOnce p (before ++ x :: after) = some (before, after) := by
  have hspan : (before ++ x :: after).span (fun y => !p y) = (before, x :: after) := by
    rw [List.span_eq_takeWhile_dropWhile]
    have hall : ∀ y ∈ before, (!p y) = true := fun y hy => by rw [hbefore y hy]; rfl
    rw [List.takeWhile_append_of_pos hall, List.dropWhile_append_of_pos hall]
    simp [hx]
  rw [splitOnce, hspan]

/-- A list without a separator is not split. -/
lemma splitOnce_eq_none {α : Type} {p : α → Bool} {l : List α} (h : ∀ y ∈ l, p y = false) :
    splitOnce p l = none := by
  have hspan : l.span (fun y => !p y) = (l, []) := by
    have hall : ∀ y ∈ l, (!p y) = true := fun y hy => by rw [h y hy]; rfl
    rw [List.span_eq_takeWhile_dropWhile, List.takeWhile_eq_self_iff.mpr hall,
      List.dropWhile_eq_nil_iff.mpr hall]
  rw [splitOnce, hspan]

/-- A list has no separator, or it is what is before the first one, that one and what is behind. -/
theorem splitOnce_cases {α : Type} (p : α → Bool) (l : List α) :
    (splitOnce p l = none ∧ ∀ y ∈ l, p y = false) ∨
      ∃ before x after, l = before ++ x :: after ∧ p x = true ∧ (∀ y ∈ before, p y = false) ∧
        splitOnce p l = some (before, after) := by
  by_cases h : ∀ y ∈ l, p y = false
  · exact .inl ⟨splitOnce_eq_none h, h⟩
  · right
    induction l with
    | nil => exact absurd (fun _ hy => nomatch hy) h
    | cons z l ih =>
      by_cases hz : p z = true
      · refine ⟨[], z, l, rfl, hz, by simp, ?_⟩
        have hsplit : splitOnce p ([] ++ z :: l) = some ([], l) :=
          splitOnce_append (fun _ hy => nomatch hy) hz
        exact hsplit
      · have hz : p z = false := by simpa using hz
        have hl : ¬∀ y ∈ l, p y = false := fun hl => h (List.forall_mem_cons.mpr ⟨hz, hl⟩)
        obtain ⟨before, x, after, rfl, hx, hbefore, -⟩ := ih hl
        have hbefore' : ∀ y ∈ z :: before, p y = false := List.forall_mem_cons.mpr ⟨hz, hbefore⟩
        exact ⟨z :: before, x, after, rfl, hx, hbefore', splitOnce_append hbefore' hx⟩

namespace Decimal

/-! ## Texts of digits -/

/-- The number of a text of digits. -/
def value (digits : List Char) : ℕ := Nat.ofDigitChars 10 digits 0

/-- A text of digits. -/
def Digits (text : List Char) : Prop := ∀ c ∈ text, c.isDigit = true

/-- The decimal digits of a number are such a text. -/
lemma digits_toDigits (n : ℕ) : Digits (Nat.toDigits 10 n) := fun _ hc =>
  Nat.isDigit_of_mem_toDigits (by decide) (by decide) hc

@[simp] lemma value_toDigits (n : ℕ) : value (Nat.toDigits 10 n) = n :=
  Nat.ofDigitChars_ten_toDigits

lemma Digits.all {text : List Char} (h : Digits text) : text.all Char.isDigit = true :=
  List.all_eq_true.mpr h

lemma digits_append {a b : List Char} : Digits (a ++ b) ↔ Digits a ∧ Digits b := by
  unfold Digits
  simp only [List.mem_append, or_imp, forall_and]

lemma Digits.replicate_zero (n : ℕ) : Digits (List.replicate n '0') := by
  intro c hc
  rw [List.eq_of_mem_replicate hc]
  rfl

@[simp] lemma value_nil : value [] = 0 := rfl

lemma value_append (a b : List Char) : value (a ++ b) = value a * 10 ^ b.length + value b := by
  unfold value
  rw [Nat.ofDigitChars_append, Nat.ofDigitChars_eq_ofDigitChars_zero, Nat.mul_comm]

lemma value_replicate_zero (n : ℕ) : value (List.replicate n '0') = 0 := by
  unfold value
  rw [Nat.ofDigitChars_replicate_zero, Nat.mul_zero]

/-- Zeros in front do not count. -/
lemma value_zeros_append (n : ℕ) (a : List Char) :
    value (List.replicate n '0' ++ a) = value a := by
  rw [value_append, value_replicate_zero, Nat.zero_mul, Nat.zero_add]

/-- A zero behind counts ten times. -/
lemma value_append_zeros (a : List Char) (n : ℕ) :
    value (a ++ List.replicate n '0') = value a * 10 ^ n := by
  rw [value_append, value_replicate_zero, List.length_replicate, Nat.add_zero]

/-- A text that does not end in zero is no multiple of ten. -/
lemma not_ten_dvd_value {a : List Char} {c : Char} (hc : c.isDigit = true) (hzero : c ≠ '0') :
    ¬10 ∣ value (a ++ [c]) := by
  have hvalue : value [c] = c.toNat - 48 := by
    simp [value, Nat.ofDigitChars_cons]
  have hdigit : 48 ≤ c.toNat ∧ c.toNat ≤ 57 := by
    simp only [Char.isDigit, Bool.and_eq_true, decide_eq_true_eq] at hc
    exact ⟨hc.1, hc.2⟩
  have hne : c.toNat ≠ 48 := by
    intro h
    refine hzero (Char.ext (UInt32.toNat_inj.mp ?_))
    exact h
  rw [value_append, hvalue, List.length_singleton]
  omega

/-! ## Trailing zeros -/

/-- The digits in front of the trailing zeros. -/
def stripZeros (digits : List Char) : List Char := digits.rdropWhile (· = '0')

/-- How many zeros a text ends in. -/
def trailingZeros (digits : List Char) : ℕ := digits.length - (stripZeros digits).length

lemma stripZeros_append_zeros (digits : List Char) :
    stripZeros digits ++ List.replicate (trailingZeros digits) '0' = digits := by
  have hsplit : stripZeros digits ++ digits.rtakeWhile (· = '0') = digits :=
    List.rdropWhile_append_rtakeWhile
  have hall : ∀ c ∈ digits.rtakeWhile (· = '0'), c = '0' := fun c hc => by
    simpa using List.mem_rtakeWhile_imp hc
  have hlength : (digits.rtakeWhile (· = '0')).length = trailingZeros digits := by
    unfold trailingZeros
    have := congrArg List.length hsplit
    rw [List.length_append] at this
    omega
  rw [← hlength, ← List.eq_replicate_length.mpr hall]
  exact hsplit

lemma value_stripZeros (digits : List Char) :
    value digits = value (stripZeros digits) * 10 ^ trailingZeros digits := by
  rw [← value_append_zeros, stripZeros_append_zeros]

/-- What is left in front of the trailing zeros is empty or does not end in zero. -/
theorem stripZeros_cases {digits : List Char} (h : Digits digits) :
    stripZeros digits = [] ∨ ¬10 ∣ value (stripZeros digits) := by
  rcases List.eq_nil_or_concat (stripZeros digits) with hnil | ⟨front, c, hfront⟩
  · exact .inl hnil
  · right
    rw [List.concat_eq_append] at hfront
    have hmem : c ∈ digits := by
      rw [← stripZeros_append_zeros digits, hfront]
      simp
    have hlast : c ≠ '0' := by
      have hne : stripZeros digits ≠ [] := by simp [hfront]
      have := List.rdropWhile_last_not _ _ hne
      rintro rfl
      have hget : (stripZeros digits).getLast hne = '0' := by simp [hfront]
      exact this (decide_eq_true hget)
    rw [hfront]
    exact not_ten_dvd_value (h c hmem) hlast

/-! ## Numbers -/

/-- The number of a text of digits of which the last ones are decimals. -/
def number (digits : List Char) (decimals : ℕ) : ℚ := value digits / 10 ^ decimals

/-- The number of an integer part and a fraction. -/
lemma number_append (int frac : List Char) :
    number (int ++ frac) frac.length = value int + value frac / 10 ^ frac.length := by
  unfold number
  rw [value_append]
  push_cast
  field_simp

/-- Zeros behind the fraction do not count. -/
lemma value_stripZeros_div (frac : List Char) :
    (value (stripZeros frac) : ℚ) / 10 ^ (stripZeros frac).length =
      value frac / 10 ^ frac.length := by
  have hlength : frac.length = (stripZeros frac).length + trailingZeros frac := by
    have := congrArg List.length (stripZeros_append_zeros frac)
    rw [List.length_append, List.length_replicate] at this
    exact this.symm
  rw [value_stripZeros frac, hlength, pow_add]
  push_cast
  field_simp

/-- **A decimal is a multiple of a power of ten** exactly when it has few enough decimals before
its trailing zeros.

**Proof sketch.** The digits in front of the zeros are no multiple of ten, so the power of ten that
divides the whole number is that of the zeros; if there are no such digits, the number is zero and
has at least as many zeros as decimals. -/
theorem exists_units_iff {digits : List Char} {decimals d : ℕ} (hdigits : Digits digits)
    (hlength : decimals ≤ digits.length) :
    (∃ n : ℕ, number digits decimals = n / 10 ^ d) ↔ decimals - trailingZeros digits ≤ d := by
  have hdvd : (∃ n : ℕ, number digits decimals = n / 10 ^ d) ↔
      10 ^ decimals ∣ value digits * 10 ^ d := by
    unfold number
    constructor
    · rintro ⟨n, hn⟩
      refine ⟨n, ?_⟩
      have hten : (10 : ℚ) ≠ 0 := by norm_num
      rw [div_eq_div_iff (pow_ne_zero _ hten) (pow_ne_zero _ hten)] at hn
      rw [Nat.mul_comm (10 ^ decimals)]
      exact_mod_cast hn
    · rintro ⟨n, hn⟩
      refine ⟨n, ?_⟩
      have hten : (10 : ℚ) ≠ 0 := by norm_num
      rw [div_eq_div_iff (pow_ne_zero _ hten) (pow_ne_zero _ hten)]
      rw [Nat.mul_comm (10 ^ decimals)] at hn
      exact_mod_cast hn
  rw [hdvd, value_stripZeros, Nat.mul_assoc, ← pow_add]
  constructor
  · intro h
    rcases stripZeros_cases hdigits with hnil | hndvd
    · unfold trailingZeros
      rw [hnil, List.length_nil]
      omega
    · by_contra hlt
      obtain ⟨k, hk⟩ : ∃ k, decimals = k + 1 + (trailingZeros digits + d) :=
        ⟨decimals - (trailingZeros digits + d) - 1, by omega⟩
      rw [hk, pow_add, Nat.mul_dvd_mul_iff_right (Nat.pow_pos (by norm_num))] at h
      exact hndvd ((Dvd.intro_left (10 ^ k) (pow_succ 10 k).symm).trans h)
  · intro h
    exact Dvd.dvd.mul_left (pow_dvd_pow 10 (by omega)) _

/-! ## Texts -/

/-- `text` is an integer part and a fraction, of which one may be empty or missing, with or without
a plus sign in front. -/
structure Plain (text int frac : List Char) : Prop where
  digits : Digits (int ++ frac)
  nonempty : int ++ frac ≠ []
  form : ∃ sign, (sign = [] ∨ sign = ['+']) ∧
    (text = sign ++ int ∧ frac = [] ∨ text = sign ++ (int ++ '.' :: frac))

/-- The number of a text without an exponent. -/
def Denotes (text : List Char) (q : ℚ) : Prop :=
  ∃ int frac, Plain text int frac ∧ q = value int + value frac / 10 ^ frac.length

/-- The number of a text that may have an exponent of ten behind the letter e. -/
def DenotesScaled (text : List Char) (q : ℚ) : Prop :=
  ∃ mantissa q' exponent, Denotes mantissa q' ∧ q = q' * 10 ^ exponent ∧
    (text = mantissa ∧ exponent = 0 ∨ ∃ c sign digits, (c = 'e' ∨ c = 'E') ∧
      (sign = [] ∨ sign = ['+']) ∧ digits ≠ [] ∧ Digits digits ∧ value digits = exponent ∧
      text = mantissa ++ c :: (sign ++ digits))

/-- A text without the plus sign in front. -/
def stripPlus : List Char → List Char
  | '+' :: rest => rest
  | text => text

/-- The text before and behind the point, without the plus sign. -/
def split (text : List Char) : List Char × List Char :=
  (splitOnce (· = '.') (stripPlus text)).getD (stripPlus text, [])

lemma stripPlus_of_ne {c : Char} {rest : List Char} (h : c ≠ '+') :
    stripPlus (c :: rest) = c :: rest := by
  unfold stripPlus
  split
  · rename_i heq
    exact absurd (List.cons.inj heq).1 h
  · rfl

/-- A text is its own without a plus sign, or has one. -/
lemma stripPlus_cases (text : List Char) :
    ∃ sign, (sign = [] ∨ sign = ['+']) ∧ text = sign ++ stripPlus text := by
  unfold stripPlus
  split
  · exact ⟨['+'], .inr rfl, rfl⟩
  · exact ⟨[], .inl rfl, rfl⟩

lemma stripPlus_append {sign rest : List Char} (hsign : sign = [] ∨ sign = ['+'])
    (hrest : ∀ tail, rest ≠ '+' :: tail) : stripPlus (sign ++ rest) = rest := by
  rcases hsign with rfl | rfl
  · cases rest with
    | nil => rfl
    | cons c rest => exact stripPlus_of_ne fun hc => hrest rest (by rw [hc])
  · rfl

lemma Digits.ne_point {text : List Char} (h : Digits text) :
    ∀ c ∈ text, decide (c = '.') = false := by
  intro c hc
  refine decide_eq_false ?_
  rintro rfl
  exact absurd (h _ hc) (by decide)

lemma Digits.append_ne_plus {text rest : List Char} (h : Digits text)
    (hrest : ∀ tail, rest ≠ '+' :: tail) (tail : List Char) : text ++ rest ≠ '+' :: tail := by
  cases text with
  | nil => exact hrest tail
  | cons c text =>
    intro heq
    obtain ⟨rfl, -⟩ := List.cons.inj heq
    exact absurd (h _ List.mem_cons_self) (by decide)

/-- The text of digits behind an optional plus sign. -/
lemma stripPlus_digits {sign digits : List Char} (hsign : sign = [] ∨ sign = ['+'])
    (h : Digits digits) : stripPlus (sign ++ digits) = digits := by
  have hnil : ∀ tail : List Char, [] ≠ '+' :: tail := fun _ ht => nomatch ht
  refine stripPlus_append hsign fun tail => ?_
  have hplus := h.append_ne_plus hnil tail
  rwa [List.append_nil] at hplus

/-- **The parts of a text** are what is before and behind its point. -/
theorem plain_iff {text int frac : List Char} :
    Plain text int frac ↔ split text = (int, frac) ∧ Digits (int ++ frac) ∧ int ++ frac ≠ [] := by
  constructor
  · rintro ⟨hdigits, hne, sign, hsign, ⟨rfl, rfl⟩ | rfl⟩
    · have hint := (digits_append.mp hdigits).1
      refine ⟨?_, hdigits, hne⟩
      rw [split, stripPlus_digits hsign hint, splitOnce_eq_none hint.ne_point]
      rfl
    · have hint := (digits_append.mp hdigits).1
      have hpoint : ∀ tail, '.' :: frac ≠ '+' :: tail := fun tail ht =>
        absurd (List.cons.inj ht).1 (by decide)
      have hstrip : stripPlus (sign ++ (int ++ '.' :: frac)) = int ++ '.' :: frac :=
        stripPlus_append hsign (hint.append_ne_plus hpoint)
      refine ⟨?_, hdigits, hne⟩
      rw [split, hstrip, splitOnce_append hint.ne_point (by decide)]
      rfl
  · rintro ⟨hsplit, hdigits, hne⟩
    refine ⟨hdigits, hne, ?_⟩
    obtain ⟨sign, hsign, htext⟩ := stripPlus_cases text
    refine ⟨sign, hsign, ?_⟩
    unfold split at hsplit
    rcases splitOnce_cases (fun c : Char => decide (c = '.')) (stripPlus text) with
      ⟨hnone, -⟩ | ⟨before, x, after, heq, hx, -, hsome⟩
    · rw [hnone] at hsplit
      obtain ⟨rfl, rfl⟩ := Prod.mk.inj hsplit
      exact .inl ⟨htext, rfl⟩
    · rw [hsome] at hsplit
      obtain ⟨rfl, rfl⟩ := Prod.mk.inj hsplit
      rw [of_decide_eq_true hx] at heq
      rw [← heq]
      exact .inr htext

/-- A text has one integer part and one fraction. -/
lemma Plain.unique {text int frac int' frac' : List Char} (h : Plain text int frac)
    (h' : Plain text int' frac') : int = int' ∧ frac = frac' := by
  have heq := (plain_iff.mp h).1.symm.trans (plain_iff.mp h').1
  exact Prod.mk.inj heq

/-- A text denotes one number. -/
lemma Denotes.unique {text : List Char} {q q' : ℚ} (h : Denotes text q) (h' : Denotes text q') :
    q = q' := by
  obtain ⟨int, frac, hplain, rfl⟩ := h
  obtain ⟨int', frac', hplain', rfl⟩ := h'
  obtain ⟨rfl, rfl⟩ := hplain.unique hplain'
  rfl

lemma Digits.ne_exponent {text : List Char} (h : Digits text) :
    ∀ c ∈ text, decide (c = 'e' ∨ c = 'E') = false := by
  intro c hc
  refine decide_eq_false ?_
  rintro (rfl | rfl)
  · exact absurd (h _ hc) (by decide)
  · exact absurd (h _ hc) (by decide)

/-- A text without an exponent has no letter e. -/
lemma Plain.ne_exponent {text int frac : List Char} (h : Plain text int frac) :
    ∀ c ∈ text, decide (c = 'e' ∨ c = 'E') = false := by
  obtain ⟨hdigits, -, sign, hsign, hform⟩ := h
  obtain ⟨hint, hfrac⟩ := digits_append.mp hdigits
  have hplus : ∀ c ∈ sign, decide (c = 'e' ∨ c = 'E') = false := by
    rcases hsign with rfl | rfl
    · exact fun _ hc => nomatch hc
    · exact fun c hc => by rw [List.mem_singleton.mp hc]; rfl
  rcases hform with ⟨rfl, -⟩ | rfl
  · intro c hc
    rcases List.mem_append.mp hc with hc | hc
    · exact hplus c hc
    · exact hint.ne_exponent c hc
  · intro c hc
    rcases List.mem_append.mp hc with hc | hc
    · exact hplus c hc
    rcases List.mem_append.mp hc with hc | hc
    · exact hint.ne_exponent c hc
    rcases List.mem_cons.mp hc with rfl | hc
    · rfl
    · exact hfrac.ne_exponent c hc

/-- A text with an exponent denotes one number. -/
lemma DenotesScaled.unique {text : List Char} {q q' : ℚ} (h : DenotesScaled text q)
    (h' : DenotesScaled text q') : q = q' := by
  have hfind : ∀ {q}, DenotesScaled text q → ∃ r : ℚ,
      Denotes ((splitOnce (fun c => decide (c = 'e' ∨ c = 'E')) text).getD (text, ['0'])).1 r ∧
      q = r * 10 ^ value (stripPlus
        ((splitOnce (fun c => decide (c = 'e' ∨ c = 'E')) text).getD (text, ['0'])).2) := by
    rintro q ⟨mantissa, r, exponent, hr, rfl, ⟨rfl, rfl⟩ | ⟨c, sign, digits, hc, hsign, -, hdigits,
      rfl, rfl⟩⟩
    · obtain ⟨int, frac, hplain, -⟩ := id hr
      rw [splitOnce_eq_none hplain.ne_exponent]
      exact ⟨r, hr, rfl⟩
    · obtain ⟨int, frac, hplain, -⟩ := id hr
      rw [splitOnce_append hplain.ne_exponent (decide_eq_true hc), Option.getD_some,
        stripPlus_digits hsign hdigits]
      exact ⟨r, hr, rfl⟩
  obtain ⟨r, hr, rfl⟩ := hfind h
  obtain ⟨r', hr', rfl⟩ := hfind h'
  rw [hr.unique hr']

end Decimal

end Lib
