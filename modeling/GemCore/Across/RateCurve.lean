import GemCore.Across.Fees
import GemCore.Lib.Integral
import GemCore.Lib.Truncation

/-!
# The rate curve of an Across pool

A rate model describes the yearly rate as a function of the utilization of the pool: a line up to
a kink, and a steeper one after it. What a deposit pays is the average of the rate between the
utilizations before and after it, so the fee is computed from areas below the curve. Here the
curve and its area are real; the integers of `LpFee` are compared with them.

## Main definitions

* `RateModel.curve`, `RateModel.area` — the rate, and the area below it.
* `LpFee.rateAt`, `LpFee.areaAt` — what the source computes for them when it does not panic.
* `LpFee.Approximates` — the areas that are computed fall short of the real ones by at most an
  error, and grow with the utilization.

## Main results

* `RateModel.area_eq` — the area in closed form.
* `LpFee.under_rateAt`, `LpFee.approximates_of_kink` — the rate that is computed falls short of the
  curve by at most one, the area by at most six when the curve rises to the kink.
* `LpFee.Approximates.average` — the average rate lies between the rates at the two ends.
-/

namespace GemCore.Across

open Lib

lemma one_pos : 0 < one := by decide

/-! ## The curve -/

namespace RateModel

variable (model : RateModel)

/-- The slope of the curve before the kink; a curve that starts at the kink has no such part. -/
noncomputable def slope : ℝ := if model.ubar = 0 then 0 else model.r1 / model.ubar

/-- The slope of the curve after the kink. -/
noncomputable def slopeAfter : ℝ := model.r2 / (one - model.ubar)

/-- The rate at a utilization: `r0`, and `r1` for the part of the way to the kink and `r2` for the
part of the way from there to full utilization that has been gone. -/
noncomputable def curve (u : ℝ) : ℝ :=
  model.r0 + (if model.ubar = 0 then 0 else model.r1 * min u model.ubar / model.ubar) +
    model.r2 * max (u - model.ubar) 0 / (one - model.ubar)

/-- The area below the curve up to a utilization, as a percentage. -/
noncomputable def area (u : ℝ) : ℝ := (∫ x in (0 : ℝ)..u, model.curve x) / one

/-- A model as the bridge has them: the kink comes before full utilization and no rate is
negative. -/
structure Valid : Prop where
  ubar_nonneg : 0 ≤ model.ubar
  ubar_lt : model.ubar < one
  r0 : 0 ≤ model.r0
  r1 : 0 ≤ model.r1
  r2 : 0 ≤ model.r2

variable {model}

/-- The curve as a sum of a constant, a line and two ramps. -/
lemma curve_eq (u : ℝ) :
    model.curve u = model.r0 + model.slope * (u - max (u - model.ubar) 0) +
      model.slopeAfter * max (u - model.ubar) 0 := by
  have hmin : min u (model.ubar : ℝ) = u - max (u - model.ubar) 0 := by
    rcases le_total u (model.ubar : ℝ) with h | h
    · rw [min_eq_left h, max_eq_right (by linarith), sub_zero]
    · rw [min_eq_right h, max_eq_left (by linarith), sub_sub_cancel]
  rw [curve, slope, slopeAfter, hmin]
  split <;> ring

lemma continuous_curve : Continuous model.curve := by
  have h : model.curve = fun u : ℝ => model.r0 + model.slope * (u - max (u - model.ubar) 0) +
      model.slopeAfter * max (u - model.ubar) 0 := funext curve_eq
  rw [h]
  fun_prop

lemma Valid.slope_nonneg (h : model.Valid) : 0 ≤ model.slope := by
  have h1 : (0 : ℝ) ≤ model.r1 := by exact_mod_cast h.r1
  have hubar : (0 : ℝ) ≤ model.ubar := by exact_mod_cast h.ubar_nonneg
  rw [slope]
  split
  · exact le_rfl
  · exact div_nonneg h1 hubar

lemma Valid.slopeAfter_nonneg (h : model.Valid) : 0 ≤ model.slopeAfter := by
  have h2 : (0 : ℝ) ≤ model.r2 := by exact_mod_cast h.r2
  have hubar : (model.ubar : ℝ) ≤ one := by exact_mod_cast h.ubar_lt.le
  exact div_nonneg h2 (by linarith)

lemma Valid.monotone_curve (h : model.Valid) : Monotone model.curve := by
  intro u v huv
  have hramp : max (u - model.ubar : ℝ) 0 ≤ max (v - model.ubar) 0 :=
    max_le_max (by linarith) le_rfl
  have hline : u - max (u - model.ubar : ℝ) 0 ≤ v - max (v - model.ubar) 0 := by
    rcases le_total v (model.ubar : ℝ) with hv | hv
    · rw [max_eq_right (by linarith : v - model.ubar ≤ 0), max_eq_right (by linarith)]
      linarith
    · rw [max_eq_left (by linarith : (0 : ℝ) ≤ v - model.ubar)]
      linarith [le_max_left (u - model.ubar : ℝ) 0]
  rw [curve_eq, curve_eq]
  have hslope := mul_le_mul_of_nonneg_left hline h.slope_nonneg
  have hslopeAfter := mul_le_mul_of_nonneg_left hramp h.slopeAfter_nonneg
  linarith

/-- The area below the curve: a rectangle for each constant, a triangle for each ramp. -/
theorem area_eq (hubar : 0 ≤ model.ubar) {u : ℝ} (hu : 0 ≤ u) :
    model.area u = (model.r0 * u + model.slope * ((u ^ 2 - max (u - model.ubar) 0 ^ 2) / 2) +
      model.slopeAfter * (max (u - model.ubar) 0 ^ 2 / 2)) / one := by
  have hubar' : (0 : ℝ) ≤ model.ubar := by exact_mod_cast hubar
  have hramp : IntervalIntegrable (fun x : ℝ => max (x - model.ubar) 0) MeasureTheory.volume 0 u :=
    Continuous.intervalIntegrable (by fun_prop) 0 u
  have hline : IntervalIntegrable (fun x : ℝ => x) MeasureTheory.volume 0 u :=
    continuous_id.intervalIntegrable 0 u
  have hconst : IntervalIntegrable (fun _ : ℝ => (model.r0 : ℝ)) MeasureTheory.volume 0 u :=
    continuous_const.intervalIntegrable 0 u
  rw [area, intervalIntegral.integral_congr (fun x _ => curve_eq x),
    intervalIntegral.integral_add (hconst.add ((hline.sub hramp).const_mul _))
      (hramp.const_mul _),
    intervalIntegral.integral_add hconst ((hline.sub hramp).const_mul _),
    intervalIntegral.integral_const, intervalIntegral.integral_const_mul,
    intervalIntegral.integral_const_mul, intervalIntegral.integral_sub hline hramp, integral_id,
    integral_ramp hubar' hu, smul_eq_mul]
  ring

/-- The difference of two areas is the area in between. -/
lemma area_sub (u v : ℝ) :
    model.area v - model.area u = (∫ x in u..v, model.curve x) / one := by
  have hsplit := intervalIntegral.integral_add_adjacent_intervals
    (continuous_curve.intervalIntegrable (μ := MeasureTheory.volume) 0 u)
    ((@continuous_curve model).intervalIntegrable u v)
  rw [area, area, ← hsplit]
  ring

/-- The area in the parts that the source adds up: a rectangle and a triangle before the kink, and
a rectangle and a triangle after it. -/
theorem area_eq_parts (h : model.Valid) (hkink : model.ubar ≠ 0 ∨ model.r1 = 0) {u : ℝ}
    (hu : 0 ≤ u) :
    model.area u = min u model.ubar * model.r0 / one +
      (model.curve (min u model.ubar) - model.r0) * min u model.ubar / (2 * one) +
      max (u - model.ubar) 0 * (model.r0 + model.r1) / one +
      (model.curve u - (model.r0 + model.r1)) * max (u - model.ubar) 0 / (2 * one) := by
  have hone : (one : ℝ) ≠ 0 := by exact_mod_cast one_pos.ne'
  have hslope : model.slope * model.ubar = model.r1 := by
    rw [slope]
    by_cases hzero : model.ubar = 0
    · rw [if_pos hzero, zero_mul, hkink.resolve_left (not_not.mpr hzero), Int.cast_zero]
    · rw [if_neg hzero]
      exact div_mul_cancel₀ _ (by exact_mod_cast hzero)
  rw [area_eq h.ubar_nonneg hu, curve_eq, curve_eq]
  rcases le_total u (model.ubar : ℝ) with hle | hle
  · have hramp : max (u - model.ubar : ℝ) 0 = 0 := max_eq_right (by linarith)
    rw [min_eq_left hle, hramp]
    field_simp
    ring
  · have hramp : max (u - model.ubar : ℝ) 0 = u - model.ubar := max_eq_left (by linarith)
    rw [min_eq_right hle, hramp, sub_self, max_self, sub_zero, ← hslope]
    field_simp
    ring

end RateModel

/-! ## What the source computes -/

namespace LpFee

variable (model : RateModel)

/-- The rate that `instantaneous_rate` computes. -/
def rateAt (util : ℤ) : ℤ :=
  model.r0 +
    (if model.ubar = 0 then 0 else (min util model.ubar * model.r1).tdiv model.ubar) +
    (max (util - model.ubar) 0 * model.r2).tdiv (one - model.ubar)

/-- A triangle of `area_under_curve`. -/
def triangle (height base : ℤ) : ℤ := ((one.tdiv 2 * height * base).tdiv one).tdiv one

/-- The area that `area_under_curve` computes. -/
def areaAt (util : ℤ) : ℤ :=
  (min util model.ubar * model.r0).tdiv one +
    triangle (rateAt model (min util model.ubar) - model.r0) (min util model.ubar) +
    (max (util - model.ubar) 0 * (model.r0 + model.r1)).tdiv one +
    triangle (rateAt model util - (model.r0 + model.r1)) (max (util - model.ubar) 0)

variable {model} {u v : ℤ}

/-- No rate is computed by dividing by zero. -/
lemma instantaneousRate_eq (h : model.Valid) :
    instantaneousRate model u = .ok (rateAt model u) := by
  have hne : one - model.ubar ≠ 0 := (sub_pos.mpr h.ubar_lt).ne'
  rw [instantaneousRate, divBig, if_neg hne]
  rfl

lemma areaUnderCurve_eq (h : model.Valid) : areaUnderCurve model u = .ok (areaAt model u) := by
  rw [areaUnderCurve, instantaneousRate_eq h, instantaneousRate_eq h]
  rfl

lemma apyFromUtilization_eq (h : model.Valid) (huv : u < v) :
    apyFromUtilization model u v =
      .ok (((areaAt model v - areaAt model u) * one).tdiv (v - u)) := by
  rw [apyFromUtilization, if_neg huv.ne, areaUnderCurve_eq h, areaUnderCurve_eq h]
  show divBig _ _ = _
  rw [divBig, if_neg (sub_pos.mpr huv).ne']

/-! ### The rate -/

lemma rateAt_of_le (h : u ≤ model.ubar) :
    rateAt model u =
      model.r0 + if model.ubar = 0 then 0 else (u * model.r1).tdiv model.ubar := by
  rw [rateAt, min_eq_left h, max_eq_right (by omega : u - model.ubar ≤ 0), zero_mul,
    Int.zero_tdiv, add_zero]

lemma rateAt_of_ge (h : model.ubar ≤ u) :
    rateAt model u = model.r0 + (if model.ubar = 0 then 0 else model.r1) +
      ((u - model.ubar) * model.r2).tdiv (one - model.ubar) := by
  rw [rateAt, min_eq_right h, max_eq_left (by omega : 0 ≤ u - model.ubar)]
  by_cases hzero : model.ubar = 0
  · rw [if_pos hzero, if_pos hzero]
  · rw [if_neg hzero, if_neg hzero, Int.mul_tdiv_cancel_left _ hzero]

lemma rateAt_mono (h : model.Valid) (huv : u ≤ v) : rateAt model u ≤ rateAt model v := by
  have hafter : (max (u - model.ubar) 0 * model.r2).tdiv (one - model.ubar) ≤
      (max (v - model.ubar) 0 * model.r2).tdiv (one - model.ubar) :=
    Int.tdiv_le_tdiv (sub_pos.mpr h.ubar_lt)
      (mul_le_mul_of_nonneg_right (max_le_max (by omega) le_rfl) h.r2)
  rw [rateAt, rateAt]
  by_cases hzero : model.ubar = 0
  · rw [if_pos hzero, if_pos hzero]
    omega
  · rw [if_neg hzero, if_neg hzero]
    have hbefore := Int.tdiv_le_tdiv (lt_of_le_of_ne h.ubar_nonneg (Ne.symm hzero))
      (mul_le_mul_of_nonneg_right (min_le_min huv (le_refl model.ubar)) h.r1)
    omega

lemma r0_le_rateAt (h : model.Valid) (hu : 0 ≤ u) : model.r0 ≤ rateAt model u := by
  refine le_trans ?_ (rateAt_mono h hu)
  rw [rateAt_of_le h.ubar_nonneg, zero_mul, Int.zero_tdiv, ite_self, add_zero]

/-- **The rate that is computed** falls short of the curve by at most one: before the kink only
the first division loses something, after it only the second one does. -/
theorem under_rateAt (h : model.Valid) (hu : 0 ≤ u) :
    Under (1 : ℝ) (rateAt model u) (model.curve u) := by
  rcases le_total u model.ubar with hle | hle
  · have hle' : (u : ℝ) ≤ model.ubar := by exact_mod_cast hle
    rw [rateAt_of_le hle, RateModel.curve, min_eq_left hle', max_eq_right (by linarith), mul_zero,
      zero_div, add_zero]
    by_cases hzero : model.ubar = 0
    · rw [if_pos hzero, if_pos hzero, add_zero, add_zero]
      exact (Under.refl _).mono zero_le_one
    · have hpos := lt_of_le_of_ne h.ubar_nonneg (Ne.symm hzero)
      have hdiv := (Under.refl (K := ℝ) (u * model.r1)).tdiv (mul_nonneg hu h.r1) hpos
      rw [if_neg hzero, if_neg hzero, mul_comm (model.r1 : ℝ)]
      have hsum := (Under.refl (K := ℝ) model.r0).add hdiv
      push_cast at hsum
      exact hsum.mono (by norm_num)
  · have hle' : (model.ubar : ℝ) ≤ u := by exact_mod_cast hle
    have hdiv := (Under.refl (K := ℝ) ((u - model.ubar) * model.r2)).tdiv
      (mul_nonneg (sub_nonneg.mpr hle) h.r2) (sub_pos.mpr h.ubar_lt)
    have hsum := (Under.refl (K := ℝ)
      (model.r0 + if model.ubar = 0 then 0 else model.r1)).add hdiv
    have hcurve : model.curve u =
        ((model.r0 + if model.ubar = 0 then 0 else model.r1 : ℤ) : ℝ) +
          (((u - model.ubar) * model.r2 : ℤ) : ℝ) / ((one - model.ubar : ℤ) : ℝ) := by
      rw [RateModel.curve, min_eq_right hle', max_eq_left (by linarith)]
      by_cases hzero : model.ubar = 0
      · rw [if_pos hzero, if_pos hzero]
        push_cast
        ring
      · have hne : (model.ubar : ℝ) ≠ 0 := by exact_mod_cast hzero
        rw [if_neg hzero, if_neg hzero, mul_div_cancel_right₀ _ hne]
        push_cast
        ring
    rw [rateAt_of_ge hle, hcurve]
    exact hsum.mono (by norm_num)

/-! ### The area -/

lemma triangle_mono {height height' base base' : ℤ} (hheight : 0 ≤ height)
    (hle : height ≤ height') (hbase : 0 ≤ base) (hle' : base ≤ base') :
    triangle height base ≤ triangle height' base' := by
  have hhalf : 0 ≤ one.tdiv 2 := by decide
  have hprod : one.tdiv 2 * height * base ≤ one.tdiv 2 * height' * base' :=
    mul_le_mul (mul_le_mul_of_nonneg_left hle hhalf) hle' hbase
      (mul_nonneg hhalf (hheight.trans hle))
  exact Int.tdiv_le_tdiv one_pos (Int.tdiv_le_tdiv one_pos hprod)

@[simp] lemma triangle_zero (height : ℤ) : triangle height 0 = 0 := by
  rw [triangle, mul_zero, Int.zero_tdiv, Int.zero_tdiv]

/-- A triangle on a base within full utilization halves the error of its height and loses less
than two. -/
theorem under_triangle {e x : ℝ} {height base : ℤ} (he : 0 ≤ e) (h : Under e height x)
    (hheight : 0 ≤ height) (hbase : 0 ≤ base) (hle : base ≤ one) :
    Under (e / 2 + 2) (triangle height base) (x * base / (2 * one)) := by
  have hhalf : 0 ≤ one.tdiv 2 * base := mul_nonneg (by decide) hbase
  have hcast : ((one.tdiv 2 : ℤ) : ℝ) = one / 2 := by
    have htwice : one.tdiv 2 * 2 = one := by decide
    rw [eq_div_iff two_ne_zero]
    exact_mod_cast htwice
  have hone : (1 : ℝ) ≤ one := by exact_mod_cast one_pos
  have hbase' : (0 : ℝ) ≤ base := by exact_mod_cast hbase
  have hle' : (base : ℝ) ≤ one := by exact_mod_cast hle
  have hprod : one.tdiv 2 * height * base = one.tdiv 2 * base * height := by ring
  have hdiv := ((h.mul hhalf).tdiv (mul_nonneg hhalf hheight) one_pos).tdiv
    (Int.tdiv_nonneg (mul_nonneg hhalf hheight) one_pos.le) one_pos
  rw [Int.cast_mul, hcast] at hdiv
  rw [triangle, hprod]
  have hexact : one / 2 * base * x / one / one = x * base / (2 * (one : ℝ)) := by
    field_simp
  rw [hexact] at hdiv
  refine hdiv.mono ?_
  have hshare : (base : ℝ) / one ≤ 1 := (div_le_one (by linarith)).mpr hle'
  have hunit : 1 / (one : ℝ) ≤ 1 := (div_le_one (by linarith)).mpr hone
  calc (one / 2 * base * e / one + 1) / (one : ℝ) + 1
      = base / one * (e / 2) + 1 / one + 1 := by field_simp
    _ ≤ 1 * (e / 2) + 1 + 1 := by gcongr
    _ = e / 2 + 2 := by ring

variable (model) in
/-- The areas that are computed fall short of the real ones by at most eight, and grow with the
utilization. -/
structure Approximates : Prop where
  under : ∀ u, 0 ≤ u → u ≤ one → Under (8 : ℝ) (areaAt model u) (model.area u)
  mono : ∀ u v, 0 ≤ u → u ≤ v → v ≤ one → areaAt model u ≤ areaAt model v

/-- From the kink on, the rate is at least that of the kink, when the curve rises to it. -/
theorem r0_add_r1_le_rateAt (h : model.Valid) (hkink : model.ubar ≠ 0 ∨ model.r1 = 0)
    (hu : model.ubar ≤ u) : model.r0 + model.r1 ≤ rateAt model u := by
  have hrise : (if model.ubar = 0 then 0 else model.r1) = model.r1 := by
    by_cases hzero : model.ubar = 0
    · rw [if_pos hzero, hkink.resolve_left (not_not.mpr hzero)]
    · rw [if_neg hzero]
  have hafter : 0 ≤ ((u - model.ubar) * model.r2).tdiv (one - model.ubar) :=
    Int.tdiv_nonneg (mul_nonneg (sub_nonneg.mpr hu) h.r2) (sub_pos.mpr h.ubar_lt).le
  rw [rateAt_of_ge hu, hrise]
  omega

/-- **The area that is computed**, when the curve rises to the kink, falls short of the real one by
at most eight, and grows with the utilization.

**Proof sketch.** Each rectangle loses less than one and each triangle less than three, of which
one half is the loss of its height. All four parts grow with the utilization. -/
theorem approximates_of_kink (h : model.Valid) (hkink : model.ubar ≠ 0 ∨ model.r1 = 0) :
    Approximates model := by
  constructor
  · intro u hu hu'
    have hmin : 0 ≤ min u model.ubar := le_min hu h.ubar_nonneg
    have hramp : 0 ≤ max (u - model.ubar) 0 := le_max_right _ _
    have hrect := (Under.refl (K := ℝ) (min u model.ubar * model.r0)).tdiv
      (mul_nonneg hmin h.r0) one_pos
    have hrect' := (Under.refl (K := ℝ) (max (u - model.ubar) 0 * (model.r0 + model.r1))).tdiv
      (mul_nonneg hramp (add_nonneg h.r0 h.r1)) one_pos
    have htriangle := under_triangle zero_le_one ((under_rateAt h hmin).sub_int model.r0)
      (sub_nonneg.mpr (r0_le_rateAt h hmin)) hmin ((min_le_left _ _).trans hu')
    have htriangle' : Under ((1 : ℝ) / 2 + 2)
        (triangle (rateAt model u - (model.r0 + model.r1)) (max (u - model.ubar) 0))
        ((model.curve u - (model.r0 + model.r1)) * (max (u - model.ubar) 0 : ℤ) / (2 * one)) := by
      rcases le_total u model.ubar with hle | hle
      · rw [max_eq_right (by omega : u - model.ubar ≤ 0), triangle_zero, Int.cast_zero, mul_zero,
          zero_div]
        exact ⟨by norm_num, by norm_num⟩
      · have hle' : max (u - model.ubar) 0 ≤ one :=
          max_le (by linarith [h.ubar_nonneg]) one_pos.le
        have hdiff := under_triangle zero_le_one
          ((under_rateAt h hu).sub_int (model.r0 + model.r1))
          (sub_nonneg.mpr (r0_add_r1_le_rateAt h hkink hle)) hramp hle'
        rwa [Int.cast_add] at hdiff
    have hsum := ((hrect.add htriangle).add hrect').add htriangle'
    have hparts := RateModel.area_eq_parts h hkink (u := u) (by exact_mod_cast hu)
    push_cast at hsum hparts
    rw [hparts]
    exact hsum.mono (by norm_num)
  · intro u v hu huv _
    have hmin : 0 ≤ min u model.ubar := le_min hu h.ubar_nonneg
    have hmin' : min u model.ubar ≤ min v model.ubar := min_le_min_right _ huv
    have hramp : max (u - model.ubar) 0 ≤ max (v - model.ubar) 0 :=
      max_le_max (by omega) le_rfl
    have hrect := Int.tdiv_le_tdiv one_pos (mul_le_mul_of_nonneg_right hmin' h.r0)
    have hrect' := Int.tdiv_le_tdiv one_pos
      (mul_le_mul_of_nonneg_right hramp (add_nonneg h.r0 h.r1))
    have htriangle := triangle_mono (sub_nonneg.mpr (r0_le_rateAt h hmin))
      (sub_le_sub_right (rateAt_mono h hmin') model.r0) hmin hmin'
    have htriangle' : triangle (rateAt model u - (model.r0 + model.r1)) (max (u - model.ubar) 0) ≤
        triangle (rateAt model v - (model.r0 + model.r1)) (max (v - model.ubar) 0) := by
      rcases le_total u model.ubar with hle | hle
      · -- before the kink there is no triangle, whatever its height
        rw [max_eq_right (by omega : u - model.ubar ≤ 0), triangle_zero]
        rcases le_total v model.ubar with hle' | hle'
        · rw [max_eq_right (by omega : v - model.ubar ≤ 0), triangle_zero]
        · have hpos := triangle_mono le_rfl
            (sub_nonneg.mpr (r0_add_r1_le_rateAt h hkink hle')) le_rfl
            (le_max_right (v - model.ubar) 0)
          rwa [triangle_zero] at hpos
      · exact triangle_mono (sub_nonneg.mpr (r0_add_r1_le_rateAt h hkink hle))
          (sub_le_sub_right (rateAt_mono h huv) _) (le_max_right _ _) hramp
    rw [areaAt, areaAt]
    omega

/-- **The average rate** between two utilizations is not negative, and lies between the rates that
are computed at them, up to the error of the two areas and one of rounding.

**Proof sketch.** The exact average lies between the values of the curve, which is monotone. The
difference of the areas is within eight of the area in between, and the rate that is computed
falls short of the curve by at most one. -/
theorem Approximates.average (harea : Approximates model) (h : model.Valid) (hu : 0 ≤ u)
    (huv : u < v) (hv : v ≤ one) :
    let apy := ((areaAt model v - areaAt model u) * one).tdiv (v - u)
    let err : ℝ := 8 * one / (v - u) + 1
    0 ≤ apy ∧ rateAt model u - err ≤ apy ∧ apy ≤ rateAt model v + err := by
  intro apy err
  have hdiff : 0 ≤ areaAt model v - areaAt model u :=
    sub_nonneg.mpr (harea.mono u v hu huv.le hv)
  have hsub : 0 < v - u := sub_pos.mpr huv
  have hsub' : (0 : ℝ) < v - u := by exact_mod_cast hsub
  have hone : (0 : ℝ) < one := by exact_mod_cast one_pos
  have huv' : (u : ℝ) ≤ v := by linarith
  have hapy := (Under.refl (K := ℝ) ((areaAt model v - areaAt model u) * one)).tdiv
    (mul_nonneg hdiff one_pos.le) hsub
  push_cast at hapy
  have hbefore := harea.under u hu (huv.le.trans hv)
  have hafter := harea.under v (hu.trans huv.le) hv
  have hbelow := mul_le_integral RateModel.continuous_curve
    (h.monotone_curve.monotoneOn _) huv'
  have habove := integral_le_mul RateModel.continuous_curve
    (h.monotone_curve.monotoneOn _) huv'
  have hbetween : (model.area v - model.area u) * one = ∫ x in (u : ℝ)..v, model.curve x := by
    rw [RateModel.area_sub, div_mul_cancel₀ _ hone.ne']
  have hrateu := (under_rateAt h hu).le
  have hratev := (under_rateAt h (hu.trans huv.le)).ge
  refine ⟨Int.tdiv_nonneg (mul_nonneg hdiff one_pos.le) hsub.le, ?_, ?_⟩
  · have hlower : model.curve u - 8 * one / (v - u) ≤
        (areaAt model v - areaAt model u) * one / (v - u) := by
      rw [sub_le_iff_le_add, ← add_div, le_div_iff₀ hsub', ← add_mul]
      calc model.curve u * (v - u) ≤ (model.area v - model.area u) * one := by linarith
        _ ≤ (areaAt model v - areaAt model u + 8) * one := by
          apply mul_le_mul_of_nonneg_right _ hone.le
          linarith [hafter.ge, hbefore.le]
    have hround := hapy.ge
    rw [zero_div, zero_add] at hround
    linarith
  · have hupper : (areaAt model v - areaAt model u) * one / (v - u) ≤
        model.curve v + 8 * one / (v - u) := by
      rw [← sub_le_iff_le_add, ← sub_div, div_le_iff₀ hsub', ← sub_mul]
      calc (areaAt model v - areaAt model u - 8 : ℝ) * one
          ≤ (model.area v - model.area u) * one := by
            apply mul_le_mul_of_nonneg_right _ hone.le
            linarith [hafter.le, hbefore.ge]
        _ ≤ model.curve v * (v - u) := by linarith
    linarith [hapy.le]

end LpFee

end GemCore.Across
