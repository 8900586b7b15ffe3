import Mathlib.Data.Int.ConditionallyCompleteOrder
import Mathlib.Tactic.FieldSimp
import Mathlib.Tactic.Linarith
import Mathlib.Tactic.Positivity
import Mathlib.Tactic.Ring

/-!
# Truncated arithmetic

An integer computed with truncating divisions stands for the number that exact division would
have given. While everything is nonnegative it falls short of that number, by an error that grows
with each operation in a known way.

## Main definitions

* `Under` — an integer falls short of a number by at most a given error.

## Main results

* `Under.add`, `Under.mul`, `Under.tdiv` — the errors of sums, multiples and truncated quotients.
* `tdiv_mul_mem_Icc` — whatever its sign, a truncated quotient stays within bounds around zero.
-/

namespace Lib

variable {K : Type} [Field K] [LinearOrder K] [IsStrictOrderedRing K]

/-- The integer falls short of the number by at most `e`. -/
structure Under (e : K) (n : ℤ) (x : K) : Prop where
  le : (n : K) ≤ x
  ge : x ≤ n + e

namespace Under

variable {e e' x x' : K} {n n' : ℤ}

omit [IsStrictOrderedRing K] in
lemma refl (n : ℤ) : Under 0 n (n : K) := ⟨le_rfl, by rw [add_zero]⟩

lemma mono (h : Under e n x) (he : e ≤ e') : Under e' n x :=
  ⟨h.le, h.ge.trans (by linarith)⟩

lemma add (h : Under e n x) (h' : Under e' n' x') : Under (e + e') (n + n') (x + x') := by
  constructor
  · push_cast
    linarith [h.le, h'.le]
  · push_cast
    linarith [h.ge, h'.ge]

lemma sub_int (h : Under e n x) (m : ℤ) : Under e (n - m) (x - m) := by
  constructor
  · push_cast
    linarith [h.le]
  · push_cast
    linarith [h.ge]

/-- A multiple multiplies the error. -/
lemma mul (h : Under e n x) {c : ℤ} (hc : 0 ≤ c) : Under (c * e) (c * n) (c * x) := by
  have hc' : (0 : K) ≤ c := by exact_mod_cast hc
  constructor
  · push_cast
    exact mul_le_mul_of_nonneg_left h.le hc'
  · push_cast
    calc (c : K) * x ≤ c * (n + e) := mul_le_mul_of_nonneg_left h.ge hc'
      _ = c * n + c * e := mul_add _ _ _

/-- A truncated quotient of a nonnegative number divides the error and loses less than one. -/
theorem tdiv (h : Under e n x) (hn : 0 ≤ n) {b : ℤ} (hb : 0 < b) :
    Under (e / b + 1) (n.tdiv b) (x / b) := by
  have hb' : (0 : K) < b := by exact_mod_cast hb
  rw [Int.tdiv_eq_ediv_of_nonneg hn]
  constructor
  · rw [le_div_iff₀ hb']
    have hfloor : ((n / b : ℤ) : K) * b ≤ n := by exact_mod_cast Int.ediv_mul_le n hb.ne'
    exact hfloor.trans h.le
  · rw [div_le_iff₀ hb']
    have hceil : (n : K) ≤ ((n / b : ℤ) + 1) * b := by
      exact_mod_cast (Int.lt_ediv_add_one_mul_self n hb).le
    calc x ≤ n + e := h.ge
      _ ≤ ((n / b : ℤ) + 1) * b + e := by linarith
      _ = ((n / b : ℤ) + (e / b + 1)) * b := by
        field_simp
        ring

end Under

/-- Rounding twice towards zero is rounding once. -/
lemma tdiv_tdiv (a : ℤ) {b : ℤ} (c : ℤ) (hb : 0 ≤ b) :
    (a.tdiv b).tdiv c = a.tdiv (b * c) := by
  have hnonneg : ∀ z : ℤ, 0 ≤ z → (z.tdiv b).tdiv c = z.tdiv (b * c) := by
    intro z hz
    rw [Int.tdiv_eq_ediv_of_nonneg hz, Int.tdiv_eq_ediv_of_nonneg hz,
      Int.tdiv_eq_ediv_of_nonneg (Int.ediv_nonneg hz hb), Int.ediv_ediv_of_nonneg hb]
  rcases le_total 0 a with hpos | hneg
  · exact hnonneg a hpos
  · have h := hnonneg (-a) (by omega)
    rwa [Int.neg_tdiv, Int.neg_tdiv, Int.neg_tdiv, neg_inj] at h

/-! ## Bounds around zero -/

section Bounds

variable {lo hi : ℤ}

/-- A truncated quotient stands for a number between the dividend and zero. -/
lemma tdiv_mul_mem_Icc {x b : ℤ} (hzero : (0 : ℤ) ∈ Set.Icc lo hi) (hx : x ∈ Set.Icc lo hi)
    (hb : 0 < b) : x.tdiv b * b ∈ Set.Icc lo hi := by
  rcases le_total 0 x with hpos | hneg
  · have hq : x.tdiv b = x / b := Int.tdiv_eq_ediv_of_nonneg hpos
    have hle : x / b * b ≤ x := Int.ediv_mul_le x hb.ne'
    have hnonneg : 0 ≤ x / b * b := mul_nonneg (Int.ediv_nonneg hpos hb.le) hb.le
    rw [hq]
    exact ⟨hzero.1.trans hnonneg, hle.trans hx.2⟩
  · have hq : x.tdiv b = -(-x / b) := by
      rw [← Int.tdiv_eq_ediv_of_nonneg (by omega : 0 ≤ -x), Int.neg_tdiv, neg_neg]
    have hle : -x / b * b ≤ -x := Int.ediv_mul_le (-x) hb.ne'
    have hnonneg : 0 ≤ -x / b * b := mul_nonneg (Int.ediv_nonneg (by omega) hb.le) hb.le
    rw [hq, neg_mul]
    exact ⟨by linarith [hx.1], by linarith [hzero.2]⟩

/-- A smaller multiple stays within bounds around zero. -/
lemma mul_mem_Icc_of_le {q k b : ℤ} (hzero : (0 : ℤ) ∈ Set.Icc lo hi)
    (hq : q * b ∈ Set.Icc lo hi) (hk : 0 ≤ k) (hle : k ≤ b) : q * k ∈ Set.Icc lo hi := by
  rcases le_total 0 q with hpos | hneg
  · exact ⟨hzero.1.trans (mul_nonneg hpos hk), (mul_le_mul_of_nonneg_left hle hpos).trans hq.2⟩
  · exact ⟨hq.1.trans (mul_le_mul_of_nonpos_left hle hneg),
      (mul_nonpos_of_nonpos_of_nonneg hneg hk).trans hzero.2⟩

end Bounds

end Lib
