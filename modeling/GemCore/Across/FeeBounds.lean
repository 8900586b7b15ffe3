import GemCore.Across.RateCurve

/-!
# Fee percentages stay within their model

The yearly rate that a deposit pays follows the rate curve of its pool, and the percentage that a
relayer takes lies between the bounds of its configuration, both up to the rounding of the
divisions.

A curve whose kink is at zero does not rise to the kink, and `instantaneous_rate` leaves `r1` out.
`area_under_curve` does not: its rectangle is `r1` higher and its triangle, which is halved, `r1`
lower, so that half of `r1` remains.

## Main definitions

* `LpFee.FollowsCurve` — what the percentage of a liquidity provider promises.
* `LpFee.Absorbed` — a rate `r1` of a single unit is rounded away.

## Main results

* `LpFee.followsCurve_iff` — the models whose percentages follow the curve.
* `capitalFeePercent_mem` — the percentage of a relayer lies within its bounds.
* `feePercentages_spec` — both.
-/

namespace GemCore.Across

open Lib

namespace LpFee

variable {model : RateModel} {u : ℤ}

/-! ## The kink at zero -/

/-- A triangle is half of a rectangle, rounded once. -/
lemma triangle_eq (height base : ℤ) : triangle height base = (height * base).tdiv (2 * one) := by
  have hhalf : (0 : ℤ) < one.tdiv 2 := by decide
  have hone : one = one.tdiv 2 * 2 := by decide
  have hscale : (one.tdiv 2 * height * base).tdiv one = (height * base).tdiv 2 := by
    nth_rewrite 2 [hone]
    rw [mul_assoc, Int.mul_tdiv_mul_of_pos _ _ hhalf]
  rw [triangle, hscale, tdiv_tdiv _ _ zero_le_two]

variable (model) in
/-- The area that is computed when the kink is at zero: one rectangle and one triangle. -/
theorem areaAt_of_ubar_eq_zero (hzero : model.ubar = 0) (hu : 0 ≤ u) :
    areaAt model u = (u * (model.r0 + model.r1)).tdiv one +
      triangle ((u * model.r2).tdiv one - model.r1) u := by
  have hrate : rateAt model u - (model.r0 + model.r1) = (u * model.r2).tdiv one - model.r1 := by
    rw [rateAt_of_ge (by omega), if_pos hzero, hzero, sub_zero, sub_zero]
    ring
  rw [areaAt, hrate, hzero, min_eq_right hu, zero_mul, Int.zero_tdiv, triangle_zero, sub_zero,
    max_eq_left hu, zero_add, zero_add]

lemma area_of_ubar_eq_zero (hzero : model.ubar = 0) (hu : 0 ≤ u) :
    model.area u = (2 * one * (u * model.r0) + u ^ 2 * model.r2) / (2 * (one : ℝ) ^ 2) := by
  have hone : (one : ℝ) ≠ 0 := by exact_mod_cast one_pos.ne'
  have hu' : (0 : ℝ) ≤ u := by exact_mod_cast hu
  rw [RateModel.area_eq hzero.ge hu', RateModel.slope, if_pos hzero, RateModel.slopeAfter, hzero,
    Int.cast_zero, sub_zero, sub_zero, max_eq_left hu']
  field_simp
  ring

/-- With a kink at zero and a rate `r1` of two units or more, the area at full utilization is
computed too large. -/
theorem area_lt_areaAt_one (hzero : model.ubar = 0) (hr1 : 2 ≤ model.r1) :
    model.area one < areaAt model one := by
  have hone := one_pos
  have hcast : (0 : ℝ) < one := by exact_mod_cast one_pos
  have hround : model.r2 - model.r1 - 1 ≤ (model.r2 - model.r1).tdiv 2 * 2 := by
    have hmod := Int.tdiv_mul_add_tmod (model.r2 - model.r1) 2
    have hlt := Int.tmod_lt_of_pos (model.r2 - model.r1) two_pos
    omega
  have harea : areaAt model one = model.r0 + model.r1 + (model.r2 - model.r1).tdiv 2 := by
    rw [areaAt_of_ubar_eq_zero model hzero hone.le, triangle_eq,
      Int.mul_tdiv_cancel_left _ hone.ne', Int.mul_tdiv_cancel_left _ hone.ne',
      Int.mul_tdiv_mul_of_pos_left _ _ hone]
  have hexceeds : 2 * model.r0 + model.r2 <
      2 * (model.r0 + model.r1 + (model.r2 - model.r1).tdiv 2) := by omega
  have hexceeds' : (2 * model.r0 + model.r2 : ℝ) <
      2 * (model.r0 + model.r1 + (model.r2 - model.r1).tdiv 2 : ℤ) := by exact_mod_cast hexceeds
  rw [area_of_ubar_eq_zero hzero hone.le, harea, div_lt_iff₀ (by positivity)]
  calc 2 * one * (one * model.r0) + (one : ℝ) ^ 2 * model.r2
      = (2 * model.r0 + model.r2) * (one : ℝ) ^ 2 := by ring
    _ < 2 * (model.r0 + model.r1 + (model.r2 - model.r1).tdiv 2 : ℤ) * (one : ℝ) ^ 2 :=
        mul_lt_mul_of_pos_right hexceeds' (by positivity)
    _ = _ := by ring

/-! ### A single unit -/

variable (model) in
/-- A rate `r1` of a single unit is rounded away: at a utilization where its rectangle carries to
the next unit, the rest of the rectangle and the exact triangle make up for that unit and the
triangle that is computed. -/
def Absorbed : Prop :=
  ∀ u, 0 ≤ u → u ≤ one → one ≤ u * model.r0 % one + u →
    2 * one ^ 2 * (1 + max (u * model.r2 / one - 1) 0 * u / (2 * one)) ≤
      2 * one * (u * model.r0 % one) + u ^ 2 * model.r2

/-- The area at a rate `r1` of a single unit: no triangle is computed with a negative height. -/
theorem areaAt_of_unit (h : model.Valid) (hzero : model.ubar = 0) (hr1 : model.r1 = 1) (hu : 0 ≤ u)
    (hu' : u ≤ one) :
    areaAt model u = (u * model.r0 + u) / one + triangle (max (u * model.r2 / one - 1) 0) u := by
  have hrect : (u * (model.r0 + model.r1)).tdiv one = (u * model.r0 + u) / one := by
    rw [hr1, mul_add, mul_one, Int.tdiv_eq_ediv_of_nonneg (add_nonneg (mul_nonneg hu h.r0) hu)]
  have hheight : (u * model.r2).tdiv one = u * model.r2 / one :=
    Int.tdiv_eq_ediv_of_nonneg (mul_nonneg hu h.r2)
  rw [areaAt_of_ubar_eq_zero model hzero hu, hrect, hheight, hr1]
  congr 1
  rcases le_total (u * model.r2 / one - 1) 0 with hle | hle
  · have hnonneg : 0 ≤ u * model.r2 / one := Int.ediv_nonneg (mul_nonneg hu h.r2) one_pos.le
    have hcases : u * model.r2 / one - 1 = 0 ∨ u * model.r2 / one - 1 = -1 := by omega
    rw [max_eq_right hle, triangle_eq, triangle_eq, zero_mul, Int.zero_tdiv]
    rcases hcases with hflat | hbelow
    · rw [hflat, zero_mul, Int.zero_tdiv]
    · have hlt : u < 2 * one := by linarith [one_pos]
      rw [hbelow, neg_one_mul, Int.neg_tdiv, Int.tdiv_eq_zero_of_lt hu hlt, neg_zero]
  · rw [max_eq_left hle]

/-- The area is not computed too large exactly where the whole comparison, without fractions,
says so. -/
theorem areaAt_le_area_iff (hzero : model.ubar = 0) (hu : 0 ≤ u) :
    (areaAt model u : ℝ) ≤ model.area u ↔
      2 * one ^ 2 * areaAt model u ≤ 2 * one * (u * model.r0) + u ^ 2 * model.r2 := by
  have hone : (0 : ℝ) < one := by exact_mod_cast one_pos
  rw [area_of_ubar_eq_zero hzero hu, le_div_iff₀ (by positivity), mul_comm]
  norm_cast

/-- A sum carries to the next unit when the remainders do. -/
lemma add_ediv_one (a : ℤ) (hu : 0 ≤ u) (hu' : u ≤ one) :
    (a + u) / one = a / one + if one ≤ a % one + u then 1 else 0 := by
  have hone : one = 10 ^ 18 := rfl
  rw [hone] at hu' ⊢
  split <;> omega

/-- The triangle that is computed is not larger than the exact one. -/
lemma triangle_le (h : model.Valid) (hu : 0 ≤ u) :
    2 * one ^ 2 * (max (u * model.r2 / one - 1) 0 * u / (2 * one)) ≤ u ^ 2 * model.r2 := by
  have htwice : 0 < 2 * one := by decide
  have hrate : u * model.r2 / one * one ≤ u * model.r2 := Int.ediv_mul_le _ one_pos.ne'
  have hnonneg : 0 ≤ u * model.r2 / one := Int.ediv_nonneg (mul_nonneg hu h.r2) one_pos.le
  have hheight : max (u * model.r2 / one - 1) 0 ≤ u * model.r2 / one := max_le (by omega) hnonneg
  calc 2 * one ^ 2 * (max (u * model.r2 / one - 1) 0 * u / (2 * one))
      = max (u * model.r2 / one - 1) 0 * u / (2 * one) * (2 * one) * one := by ring
    _ ≤ max (u * model.r2 / one - 1) 0 * u * one :=
        mul_le_mul_of_nonneg_right (Int.ediv_mul_le _ htwice.ne') one_pos.le
    _ ≤ u * model.r2 / one * u * one :=
        mul_le_mul_of_nonneg_right (mul_le_mul_of_nonneg_right hheight hu) one_pos.le
    _ = u * model.r2 / one * one * u := by ring
    _ ≤ u * model.r2 * u := mul_le_mul_of_nonneg_right hrate hu
    _ = u ^ 2 * model.r2 := by ring

/-- **A rate `r1` of a single unit**, when the kink is at zero, is not noticed exactly if it is
rounded away.

**Proof sketch.** Where the rectangle does not carry, the unit is lost in it; where it does, the
two sides of the comparison differ by the whole part of the rectangle only. -/
theorem absorbed_iff (h : model.Valid) (hzero : model.ubar = 0) (hr1 : model.r1 = 1) :
    Absorbed model ↔ ∀ u, 0 ≤ u → u ≤ one → (areaAt model u : ℝ) ≤ model.area u := by
  refine forall₃_congr fun u hu hu' => ?_
  have hwhole := Int.mul_ediv_add_emod (u * model.r0) one
  have htriangle : triangle (max (u * model.r2 / one - 1) 0) u =
      max (u * model.r2 / one - 1) 0 * u / (2 * one) := by
    rw [triangle_eq, Int.tdiv_eq_ediv_of_nonneg (mul_nonneg (le_max_right _ _) hu)]
  have hexact := triangle_le h hu
  rw [areaAt_le_area_iff hzero hu, areaAt_of_unit h hzero hr1 hu hu', htriangle,
    add_ediv_one _ hu hu']
  have hrest : 0 ≤ u * model.r0 % one := Int.emod_nonneg _ one_pos.ne'
  generalize max (u * model.r2 / one - 1) 0 * u / (2 * one) = triangle at hexact ⊢
  generalize u * model.r0 / one = whole at hwhole ⊢
  generalize u * model.r0 % one = rest at hwhole hrest ⊢
  rw [← hwhole]
  by_cases hcarry : one ≤ rest + u
  · rw [if_pos hcarry, forall_prop_of_true hcarry]
    constructor
    · intro hle
      linarith
    · intro hle
      linarith
  · rw [if_neg hcarry]
    refine iff_of_true (fun h => absurd h hcarry) ?_
    have hloss : 0 ≤ 2 * one * rest := mul_nonneg (by decide) hrest
    linarith

/-- A rate `r1` that is rounded away leaves the areas as they should be.

**Proof sketch.** They are not too large by `absorbed_iff`. They are not too small, because the
rectangle loses less than one and the triangle, whose height loses at most two, at most three. -/
theorem approximates_of_absorbed (h : model.Valid) (hzero : model.ubar = 0) (hr1 : model.r1 = 1)
    (habsorbed : Absorbed model) : Approximates model := by
  constructor
  · intro u hu hu'
    have hone : (0 : ℝ) < one := by exact_mod_cast one_pos
    have hu'' : (0 : ℝ) ≤ u := by exact_mod_cast hu
    have hsum : 0 ≤ u * model.r0 + u := add_nonneg (mul_nonneg hu h.r0) hu
    have hprod : 0 ≤ u * model.r2 := mul_nonneg hu h.r2
    have hrect := (Under.refl (K := ℝ) (u * model.r0 + u)).tdiv hsum one_pos
    have hrate := (Under.refl (K := ℝ) (u * model.r2)).tdiv hprod one_pos
    rw [Int.tdiv_eq_ediv_of_nonneg hsum] at hrect
    rw [Int.tdiv_eq_ediv_of_nonneg hprod, zero_div, zero_add] at hrate
    have hheight : Under (2 : ℝ) (max (u * model.r2 / one - 1) 0)
        ((u * model.r2 : ℤ) / (one : ℝ)) := by
      have hnonneg : 0 ≤ u * model.r2 / one := Int.ediv_nonneg hprod one_pos.le
      have hle : max (u * model.r2 / one - 1) 0 ≤ u * model.r2 / one := max_le (by omega) hnonneg
      have hge : u * model.r2 / one - 1 ≤ max (u * model.r2 / one - 1) 0 := le_max_left _ _
      have hle' : ((max (u * model.r2 / one - 1) 0 : ℤ) : ℝ) ≤ (u * model.r2 / one : ℤ) := by
        exact_mod_cast hle
      have hge' : ((u * model.r2 / one : ℤ) : ℝ) - 1 ≤ (max (u * model.r2 / one - 1) 0 : ℤ) := by
        exact_mod_cast hge
      exact ⟨hle'.trans hrate.le, by linarith [hrate.ge]⟩
    have htriangle := under_triangle zero_le_two hheight (le_max_right _ _) hu hu'
    have hparts : model.area u ≤ ((u * model.r0 + u : ℤ) : ℝ) / one +
        (u * model.r2 : ℤ) / (one : ℝ) * u / (2 * one) := by
      have hunit : 0 ≤ (u : ℝ) / one := div_nonneg hu'' hone.le
      have hsplit : model.area u = u * model.r0 / one + u * model.r2 / one * u / (2 * (one : ℝ)) := by
        rw [area_of_ubar_eq_zero hzero hu]
        field_simp
      rw [hsplit]
      push_cast
      rw [add_div]
      linarith
    refine ⟨(absorbed_iff h hzero hr1).mp habsorbed u hu hu', hparts.trans ?_⟩
    rw [areaAt_of_unit h hzero hr1 hu hu']
    have htotal := (hrect.add htriangle).ge
    rw [zero_div] at htotal
    linarith
  · intro u v hu huv hv
    have hrate : u * model.r2 / one ≤ v * model.r2 / one :=
      Int.ediv_le_ediv one_pos (mul_le_mul_of_nonneg_right huv h.r2)
    have hrect : (u * model.r0 + u) / one ≤ (v * model.r0 + v) / one :=
      Int.ediv_le_ediv one_pos (add_le_add (mul_le_mul_of_nonneg_right huv h.r0) huv)
    have htriangle := triangle_mono (le_max_right (u * model.r2 / one - 1) 0)
      (max_le_max (sub_le_sub_right hrate 1) le_rfl) hu huv
    rw [areaAt_of_unit h hzero hr1 hu (huv.trans hv),
      areaAt_of_unit h hzero hr1 (hu.trans huv) hv]
    exact add_le_add hrect htriangle

/-! ## The fee of a liquidity provider -/

variable (model) in
/-- **The percentage of a liquidity provider** follows the rate curve: the areas that are computed
are those below the curve, up to eight units that are cut off, and grow with the utilization; the
rate of a deposit is not negative and lies between the rates at the utilizations before and after
it, up to the error that the areas leave in their quotient. -/
structure FollowsCurve : Prop where
  area : ∀ u, 0 ≤ u → u ≤ one → ∃ a : ℤ, areaUnderCurve model u = .ok a ∧
    model.area u - 8 ≤ a ∧ a ≤ model.area u
  mono : ∀ u v a b, 0 ≤ u → u ≤ v → v ≤ one → areaUnderCurve model u = .ok a →
    areaUnderCurve model v = .ok b → a ≤ b
  apy : ∀ utilBefore utilAfter, 0 ≤ utilBefore → utilBefore < utilAfter → utilAfter ≤ one →
    ∃ apy low high : ℤ, apyFromUtilization model utilBefore utilAfter = .ok apy ∧
      instantaneousRate model utilBefore = .ok low ∧
      instantaneousRate model utilAfter = .ok high ∧ 0 ≤ apy ∧
      (low : ℝ) - (8 * one / (utilAfter - utilBefore) + 1) ≤ apy ∧
      (apy : ℝ) ≤ high + (8 * one / (utilAfter - utilBefore) + 1)

lemma followsCurve_of_approximates (h : model.Valid) (harea : Approximates model) :
    FollowsCurve model where
  area u hu hu' := by
    have hunder := harea.under u hu hu'
    exact ⟨_, areaUnderCurve_eq h, by linarith [hunder.ge], hunder.le⟩
  mono u v a b hu huv hv ha hb := by
    obtain rfl := Except.ok.inj ((areaUnderCurve_eq h).symm.trans ha)
    obtain rfl := Except.ok.inj ((areaUnderCurve_eq h).symm.trans hb)
    exact harea.mono u v hu huv hv
  apy u v hu huv hv :=
    ⟨_, _, _, apyFromUtilization_eq h huv, instantaneousRate_eq h, instantaneousRate_eq h,
      harea.average h hu huv hv⟩

lemma FollowsCurve.areaAt_le (hfollows : FollowsCurve model) (h : model.Valid) (hu : 0 ≤ u)
    (hu' : u ≤ one) : (areaAt model u : ℝ) ≤ model.area u := by
  obtain ⟨a, ha, -, hle⟩ := hfollows.area u hu hu'
  obtain rfl := Except.ok.inj ((areaUnderCurve_eq h).symm.trans ha)
  exact hle

/-- The percentages of a model follow its curve exactly when the curve rises to the kink: the kink
is not at zero, or `r1` is zero, or a single unit that is rounded away. -/
theorem followsCurve_iff (h : model.Valid) :
    FollowsCurve model ↔
      0 < model.ubar ∨ model.r1 = 0 ∨ model.r1 = 1 ∧ Absorbed model := by
  constructor
  · intro hfollows
    by_cases hpos : 0 < model.ubar
    · exact .inl hpos
    · have hzero : model.ubar = 0 := le_antisymm (not_lt.mp hpos) h.ubar_nonneg
      refine .inr ?_
      by_cases hr1 : 2 ≤ model.r1
      · have hle := hfollows.areaAt_le h one_pos.le le_rfl
        exact absurd (area_lt_areaAt_one hzero hr1) (not_lt.mpr hle)
      · have hnonneg := h.r1
        have hcases : model.r1 = 0 ∨ model.r1 = 1 := by omega
        refine hcases.imp_right fun hr1 => ⟨hr1, ?_⟩
        exact (absorbed_iff h hzero hr1).mpr fun u hu hu' => hfollows.areaAt_le h hu hu'
  · intro hkink
    apply followsCurve_of_approximates h
    rcases hkink with hpos | hr1 | ⟨hr1, habsorbed⟩
    · exact approximates_of_kink h (.inl hpos.ne')
    · exact approximates_of_kink h (.inr hr1)
    · by_cases hzero : model.ubar = 0
      · exact approximates_of_absorbed h hzero hr1 habsorbed
      · exact approximates_of_kink h (.inl hzero)

end LpFee

/-! ## The fee of a relayer -/

/-- What `capital_fee_percent` charges for the difference of its bounds: a triangle up to the
cutoff, and a rectangle from there on. -/
def charge (d cutoff y : ℤ) : ℤ :=
  ((((d * one).tdiv cutoff * min cutoff y).tdiv one * min cutoff y).tdiv 2).tdiv one +
    (max 0 (y - cutoff) * d).tdiv one

/-- Nothing is divided by zero when the amount and the cutoff are positive. -/
lemma capitalFeePercent_eq {config : CapitalCostConfig} {amount y : ℤ}
    (hcutoff : 0 < config.cutoff) (hdecimals : config.decimals ≤ 18) (hamount : 0 < amount)
    (hy : amount * 10 ^ (18 - config.decimals) = y) :
    capitalFeePercent amount config = .ok ((((config.lowerBound * y).tdiv one +
      charge (config.upperBound - config.lowerBound) config.cutoff y) * one).tdiv y) := by
  have hne : y ≠ 0 := by
    rw [← hy]
    positivity
  rw [capitalFeePercent, if_neg hamount.ne', scaleFactor, if_pos hdecimals]
  show (if config.cutoff = 0 then _ else _) = _
  rw [if_neg hcutoff.ne', hy, divBig, if_neg hne, add_assoc]
  rfl

/-- What is charged for the difference of the bounds lies between that difference and zero.

**Proof sketch.** All divisions round towards zero, so every intermediate result stays between
zero and the number it stands for, whatever the sign of the difference. The height of the triangle
therefore lies between the difference and zero, and so does half of it. -/
theorem charge_mem {d cutoff y : ℤ} (hcutoff : 0 < cutoff) (hy : 0 < y) :
    charge d cutoff y * one ∈ Set.Icc (min d 0 * y) (max d 0 * y) := by
  have hbase : 0 ≤ min cutoff y := le_min hcutoff.le hy.le
  have hrest : 0 ≤ max 0 (y - cutoff) := le_max_left _ _
  have htotal : min cutoff y + max 0 (y - cutoff) = y := by omega
  have hzero : ∀ k : ℤ, 0 ≤ k → (0 : ℤ) ∈ Set.Icc (min d 0 * k) (max d 0 * k) := fun k hk =>
    ⟨mul_nonpos_of_nonpos_of_nonneg (min_le_right _ _) hk, mul_nonneg (le_max_right _ _) hk⟩
  have hself : ∀ k : ℤ, 0 ≤ k → d * k ∈ Set.Icc (min d 0 * k) (max d 0 * k) := fun k hk =>
    ⟨mul_le_mul_of_nonneg_right (min_le_left _ _) hk,
      mul_le_mul_of_nonneg_right (le_max_left _ _) hk⟩
  have hslope := tdiv_mul_mem_Icc (hzero one one_pos.le) (hself one one_pos.le) hcutoff
  have hrise := mul_mem_Icc_of_le (hzero one one_pos.le) hslope hbase (min_le_left _ _)
  have hheight := tdiv_mul_mem_Icc (hzero one one_pos.le) hrise one_pos
  rw [charge]
  generalize ((d * one).tdiv cutoff * min cutoff y).tdiv one = height at hheight ⊢
  have hbounds : height ∈ Set.Icc (min d 0) (max d 0) :=
    ⟨le_of_mul_le_mul_right hheight.1 one_pos, le_of_mul_le_mul_right hheight.2 one_pos⟩
  have hrect : height * min cutoff y ∈ Set.Icc (min d 0 * min cutoff y) (max d 0 * min cutoff y) :=
    ⟨mul_le_mul_of_nonneg_right hbounds.1 hbase, mul_le_mul_of_nonneg_right hbounds.2 hbase⟩
  have hhalf := mul_mem_Icc_of_le (hzero _ hbase)
    (tdiv_mul_mem_Icc (hzero _ hbase) hrect two_pos) zero_le_one one_le_two
  rw [mul_one] at hhalf
  have htriangle := tdiv_mul_mem_Icc (hzero _ hbase) hhalf one_pos
  have hremainder := tdiv_mul_mem_Icc (hzero _ hrest)
    (mul_comm d _ ▸ hself (max 0 (y - cutoff)) hrest) one_pos
  have hlow : min d 0 * y = min d 0 * min cutoff y + min d 0 * max 0 (y - cutoff) := by
    rw [← mul_add, htotal]
  have hhigh : max d 0 * y = max d 0 * min cutoff y + max d 0 * max 0 (y - cutoff) := by
    rw [← mul_add, htotal]
  rw [hlow, hhigh, add_mul]
  exact ⟨add_le_add htriangle.1 hremainder.1, add_le_add htriangle.2 hremainder.2⟩

/-- The whole charge is at most one unit below that at the smaller bound, and not above that at the
larger one. -/
theorem total_mem {lower upper cutoff y : ℤ} (hlower : 0 ≤ lower) (hcutoff : 0 < cutoff)
    (hy : 0 < y) :
    ((lower * y).tdiv one + charge (upper - lower) cutoff y) * one ∈
      Set.Icc (min lower upper * y - one) (max lower upper * y) := by
  obtain ⟨hlow, hhigh⟩ := charge_mem (d := upper - lower) hcutoff hy
  have hbase : 0 ≤ lower * y := mul_nonneg hlower hy.le
  have hceil := Int.lt_tdiv_add_one_mul_self (lower * y) one_pos
  have hfloor := (tdiv_mul_mem_Icc ⟨le_rfl, hbase⟩ ⟨hbase, le_rfl⟩ one_pos).2
  have hmin : min lower upper = lower + min (upper - lower) 0 := by omega
  have hmax : max lower upper = lower + max (upper - lower) 0 := by omega
  rw [hmin, hmax, add_mul, add_mul, add_mul]
  constructor
  · linarith
  · exact add_le_add hfloor hhigh

/-- **The percentage of a relayer** lies between the bounds of its configuration, whichever of them
is the larger one. It falls short of them by one for its own rounding, and by the share that one
unit has in the amount. -/
theorem capitalFeePercent_mem {config : CapitalCostConfig} {amount : ℤ}
    (hlower : 0 ≤ config.lowerBound) (hcutoff : 0 < config.cutoff)
    (hdecimals : config.decimals ≤ 18) (hamount : 0 < amount) :
    ∃ fee : ℤ, capitalFeePercent amount config = .ok fee ∧
      (min config.lowerBound config.upperBound : ℤ) -
        ((one : ℚ) / (amount * 10 ^ (18 - config.decimals)) + 1) ≤ fee ∧
      fee ≤ max config.lowerBound config.upperBound := by
  obtain ⟨y, hy⟩ : ∃ y, amount * 10 ^ (18 - config.decimals) = y := ⟨_, rfl⟩
  have hpos : 0 < y := by
    rw [← hy]
    positivity
  have hpos' : (0 : ℚ) < y := by exact_mod_cast hpos
  have hcast : (amount : ℚ) * 10 ^ (18 - config.decimals) = y := by exact_mod_cast hy
  obtain ⟨hlow, hhigh⟩ :=
    @total_mem config.lowerBound config.upperBound config.cutoff y hlower hcutoff hpos
  refine ⟨_, capitalFeePercent_eq hcutoff hdecimals hamount hy, ?_, ?_⟩
  · rw [hcast]
    have hround := hlow.trans_lt (Int.lt_tdiv_add_one_mul_self _ hpos)
    generalize ((config.lowerBound * y).tdiv one +
      charge (config.upperBound - config.lowerBound) config.cutoff y) * one = total at hround ⊢
    have hround' : ((min config.lowerBound config.upperBound : ℤ) : ℚ) * y - one <
        (total.tdiv y + 1) * y := by exact_mod_cast hround
    have hquot : ((min config.lowerBound config.upperBound : ℤ) : ℚ) - one / y <
        total.tdiv y + 1 := by
      rw [← mul_lt_mul_iff_left₀ hpos', sub_mul, div_mul_cancel₀ _ hpos'.ne']
      exact hround'
    linarith
  · calc (_ : ℤ) ≤ (max config.lowerBound config.upperBound * y).tdiv y :=
          Int.tdiv_le_tdiv hpos hhigh
      _ = max config.lowerBound config.upperBound := Int.mul_tdiv_cancel _ hpos.ne'

/-! ## Both fees -/

/-- **The fee percentages stay within their model**: that of a liquidity provider follows the rate
curve exactly when the kink is not at zero, or `r1` is zero or rounded away, and that of a relayer
always lies within its bounds. Nothing is divided by zero. -/
theorem feePercentages_spec {model : RateModel} (h : model.Valid) {config : CapitalCostConfig}
    {amount : ℤ} (hlower : 0 ≤ config.lowerBound)
    (hcutoff : 0 < config.cutoff) (hdecimals : config.decimals ≤ 18) (hamount : 0 < amount) :
    (LpFee.FollowsCurve model ↔
      0 < model.ubar ∨ model.r1 = 0 ∨ model.r1 = 1 ∧ LpFee.Absorbed model) ∧
    ∃ fee : ℤ, capitalFeePercent amount config = .ok fee ∧
      (min config.lowerBound config.upperBound : ℤ) -
        ((one : ℚ) / (amount * 10 ^ (18 - config.decimals)) + 1) ≤ fee ∧
      fee ≤ max config.lowerBound config.upperBound :=
  ⟨LpFee.followsCurve_iff h, capitalFeePercent_mem hlower hcutoff hdecimals hamount⟩

/-- The rate model of the pool of the native token. -/
def ethModel : RateModel := ⟨65 * 10 ^ 16, 0, 8 * 10 ^ 16, 10 ^ 18⟩

/-- A configuration whose upper bound is the smaller one. -/
def ethConfig : CapitalCostConfig := ⟨10 ^ 14, 75 * 10 ^ 12, 3 * 10 ^ 17, 18⟩

theorem feePercentages_spec_sample :
    LpFee.FollowsCurve ethModel ∧
    ∃ fee : ℤ, capitalFeePercent (10 ^ 18) ethConfig = .ok fee ∧ 75 * 10 ^ 12 - 2 ≤ fee ∧
      fee ≤ 10 ^ 14 := by
  have hvalid : ethModel.Valid :=
    ⟨by decide, by decide, by decide, by decide, by decide⟩
  obtain ⟨hcurve, fee, hfee, hlow, hhigh⟩ := @feePercentages_spec ethModel hvalid ethConfig
    (10 ^ 18) (by decide) (by decide) (by decide) (by decide)
  refine ⟨hcurve.mpr (.inl (by decide)), fee, hfee, ?_, hhigh⟩
  have hlow' : ((75 * 10 ^ 12 : ℤ) : ℚ) - ((10 ^ 18 : ℤ) / ((10 ^ 18 : ℤ) * 10 ^ 0) + 1) ≤ fee := hlow
  rw [← @Int.cast_le ℚ]
  push_cast at hlow' ⊢
  norm_num at hlow' ⊢
  exact hlow'

/-- A rate model whose kink is at zero. -/
def flatModel : RateModel := ⟨0, 0, 8 * 10 ^ 16, 10 ^ 18⟩

/-- With the kink at zero, half of `r1` is charged on top of the curve: the area at full
utilization is 0.54 instead of 0.5, and a deposit that brings the pool to 1% pays 4.5% although
the rate is 1% there. -/
theorem flatModel_exceeds :
    LpFee.areaUnderCurve flatModel one = .ok (54 * 10 ^ 16) ∧ flatModel.area one = 5 * 10 ^ 17 ∧
    LpFee.apyFromUtilization flatModel 0 (10 ^ 16) = .ok (45 * 10 ^ 15) ∧
    LpFee.instantaneousRate flatModel (10 ^ 16) = .ok (10 ^ 16) ∧
    ¬∀ model : RateModel, model.Valid → LpFee.FollowsCurve model := by
  have harea : flatModel.area one = 5 * 10 ^ 17 := by
    rw [LpFee.area_of_ubar_eq_zero rfl one_pos.le]
    norm_num [flatModel, one]
  have hcomputed : LpFee.areaUnderCurve flatModel one = .ok (54 * 10 ^ 16) := by decide
  refine ⟨hcomputed, harea, by decide, by decide, fun hclaim => ?_⟩
  obtain ⟨a, ha, -, hle⟩ := (hclaim flatModel
    ⟨by decide, by decide, by decide, by decide, by decide⟩).area one one_pos.le le_rfl
  obtain rfl := Except.ok.inj (hcomputed.symm.trans ha)
  rw [harea] at hle
  norm_num at hle

end GemCore.Across
