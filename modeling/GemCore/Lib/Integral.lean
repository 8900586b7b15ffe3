import Mathlib.Analysis.SpecialFunctions.Integrals.Basic

/-!
# Integrals of piecewise linear curves

A piecewise linear curve is a sum of constants, lines and ramps, a ramp being flat up to a kink
and of slope one from there on. The integral of a monotone curve lies between the rectangles below
its two ends.

## Main results

* `integral_ramp` — the area below a ramp.
* `mul_le_integral`, `integral_le_mul` — the rectangles below and above a monotone curve.
-/

namespace Lib

/-- The area below a ramp is that of a triangle.

**Proof sketch.** Up to the kink the ramp vanishes; from there on it is a shifted line. -/
theorem integral_ramp {c u : ℝ} (hc : 0 ≤ c) (hu : 0 ≤ u) :
    ∫ x in (0 : ℝ)..u, max (x - c) 0 = max (u - c) 0 ^ 2 / 2 := by
  have hcont : Continuous fun x : ℝ => max (x - c) 0 := by fun_prop
  have hflat : ∀ v, 0 ≤ v → v ≤ c → ∫ x in (0 : ℝ)..v, max (x - c) 0 = 0 := by
    intro v hv hvc
    rw [intervalIntegral.integral_congr (g := fun _ => 0), intervalIntegral.integral_zero]
    intro x hx
    rw [Set.uIcc_of_le hv] at hx
    exact max_eq_right (by linarith [hx.2])
  by_cases h : u ≤ c
  · rw [hflat u hu h, max_eq_right (by linarith)]
    norm_num
  · have hcu : c ≤ u := (not_le.mp h).le
    rw [← intervalIntegral.integral_add_adjacent_intervals (hcont.intervalIntegrable 0 c)
      (hcont.intervalIntegrable c u), hflat c hc le_rfl, zero_add, max_eq_left (by linarith),
      intervalIntegral.integral_congr (g := fun x => x - c)]
    · rw [intervalIntegral.integral_comp_sub_right (fun x => x), sub_self, integral_id]
      ring
    · intro x hx
      rw [Set.uIcc_of_le hcu] at hx
      exact max_eq_left (by linarith [hx.1])

section Monotone

variable {f : ℝ → ℝ} {a b : ℝ}

/-- The rectangle below the start of a monotone curve lies below it. -/
lemma mul_le_integral (hf : Continuous f) (hmono : MonotoneOn f (Set.Icc a b)) (hab : a ≤ b) :
    (b - a) * f a ≤ ∫ x in a..b, f x := by
  have h := intervalIntegral.integral_mono_on (f := fun _ => f a) (g := f)
    (μ := MeasureTheory.volume) hab (continuous_const.intervalIntegrable a b)
    (hf.intervalIntegrable a b) fun x hx => hmono ⟨le_rfl, hab⟩ hx hx.1
  rwa [intervalIntegral.integral_const, smul_eq_mul] at h

/-- The rectangle below the end of a monotone curve contains the area below it. -/
theorem integral_le_mul (hf : Continuous f) (hmono : MonotoneOn f (Set.Icc a b)) (hab : a ≤ b) :
    ∫ x in a..b, f x ≤ (b - a) * f b := by
  have h := intervalIntegral.integral_mono_on (f := f) (g := fun _ => f b)
    (μ := MeasureTheory.volume) hab (hf.intervalIntegrable a b)
    (continuous_const.intervalIntegrable a b) fun x hx => hmono hx ⟨hab, le_rfl⟩ hx.2
  rwa [intervalIntegral.integral_const, smul_eq_mul] at h

end Monotone

end Lib
