import GemCore.Swapper.Types
import Mathlib.Tactic.Ring

/-!
# Fees of the Across bridge

The fee of the liquidity providers, from the utilization of the pool before and after the
deposit, and the fee of the relayer, from the size of the deposit
(`gem_evm/src/across/fees`). Percentages have 18 decimals. Integers are unbounded and their
division rounds towards zero; only the amounts at the end are `U256`.

## Main definitions

* `LpFee.realizedLpFeePct`, `capitalFeePercent` — the two percentages.
* `multiply`, `calculateFeeInToken` — the amounts.
* `exactShare`, `exactFeeInToken` — the amounts before they are put into 256 bits.

## Main results

* `multiply_exact_iff` — a share is put into 256 bits unchanged exactly when it is not negative.
* `gasFee_exact_iff` — when the gas fee is computed without loss.
-/

namespace GemCore.Across

/-- `EtherConv::one`, and the fixed point of all percentages. -/
def one : ℤ := 10 ^ 18

/-- Division of `BigInt`s, which panics at zero. -/
def divBig (a b : ℤ) : Except Failure ℤ := if b = 0 then .error .panic else .ok (a.tdiv b)

/-! ## The fee of the liquidity providers -/

/-- `RateModel`. -/
structure RateModel where
  ubar : ℤ
  r0 : ℤ
  r1 : ℤ
  r2 : ℤ

namespace LpFee

variable (model : RateModel)

/-- `instantaneous_rate`. -/
def instantaneousRate (util : ℤ) : Except Failure ℤ := do
  let beforeKink := if model.ubar = 0 then 0 else (min util model.ubar * model.r1).tdiv model.ubar
  let afterKink ← divBig (max (util - model.ubar) 0 * model.r2) (one - model.ubar)
  .ok (model.r0 + beforeKink + afterKink)

/-- `area_under_curve`. -/
def areaUnderCurve (util : ℤ) : Except Failure ℤ := do
  let point5 := one.tdiv 2
  let utilBeforeKink := min util model.ubar
  let rect1 := (utilBeforeKink * model.r0).tdiv one
  let rateAtKink ← instantaneousRate model utilBeforeKink
  let triangle1 := ((point5 * (rateAtKink - model.r0) * utilBeforeKink).tdiv one).tdiv one
  let utilAfter := max (util - model.ubar) 0
  let rect2 := (utilAfter * (model.r0 + model.r1)).tdiv one
  let rate ← instantaneousRate model util
  let triangle2 := ((point5 * (rate - (model.r0 + model.r1)) * utilAfter).tdiv one).tdiv one
  .ok (rect1 + triangle1 + rect2 + triangle2)

/-- `apy_from_utilization`. -/
def apyFromUtilization (utilBefore utilAfter : ℤ) : Except Failure ℤ :=
  if utilBefore = utilAfter then instantaneousRate model utilBefore
  else do
    let areaBefore ← areaUnderCurve model utilBefore
    let areaAfter ← areaUnderCurve model utilAfter
    divBig ((areaAfter - areaBefore) * one) (utilAfter - utilBefore)

/-- `truncate_18_decimal_bn`. -/
def truncate18DecimalBn (input : ℤ) (digits : ℕ) : ℤ :=
  input.tdiv (10 ^ (18 - digits)) * 10 ^ (18 - digits)

/-- `realized_lp_fee_pct`. The conversion of the yearly rate to a weekly one computes with
floating-point numbers and casts to `u64`; it is a parameter. -/
def realizedLpFeePct (convertApyToWeeklyFee : ℤ → UInt64) (utilBefore utilAfter : ℤ)
    (truncateDecimals : Bool) : Except Failure ℤ := do
  let apy ← apyFromUtilization model utilBefore utilAfter
  let weeklyFee : ℤ := (convertApyToWeeklyFee apy).toNat
  .ok (if truncateDecimals then truncate18DecimalBn weeklyFee 6 else weeklyFee)

end LpFee

/-! ## The fee of the relayer -/

/-- `CapitalCostConfig`. -/
structure CapitalCostConfig where
  lowerBound : ℤ
  upperBound : ℤ
  cutoff : ℤ
  decimals : ℕ

/-- `10.pow(18 - decimals)`: the subtraction of `u32`s panics below zero. -/
def scaleFactor (decimals : ℕ) : Except Failure ℤ :=
  if decimals ≤ 18 then .ok (10 ^ (18 - decimals)) else .error .panic

/-- `RelayerFeeCalculator::capital_fee_percent`. -/
def capitalFeePercent (amountToRelay : ℤ) (config : CapitalCostConfig) : Except Failure ℤ :=
  if amountToRelay = 0 then .ok (2 ^ 63 - 1)
  else do
    let scale ← scaleFactor config.decimals
    let y := amountToRelay * scale
    let minCharge := (config.lowerBound * y).tdiv one
    if config.cutoff = 0 then .ok config.upperBound
    else
      let yTriangle := min config.cutoff y
      let triangleSlope := ((config.upperBound - config.lowerBound) * one).tdiv config.cutoff
      let triangleHeight := (triangleSlope * yTriangle).tdiv one
      let triangleCharge := ((triangleHeight * yTriangle).tdiv 2).tdiv one
      let yRemainder := max 0 (y - config.cutoff)
      let remainderCharge := (yRemainder * (config.upperBound - config.lowerBound)).tdiv one
      divBig ((minCharge + triangleCharge + remainderCharge) * one) y

/-! ## Amounts -/

/-- The percentage of an amount, as an integer. -/
def exactShare (amount : ℕ) (percent : ℤ) (decimals : ℕ) : ℤ :=
  ((amount * percent).tdiv (10 ^ (18 - decimals))).tdiv (10 ^ decimals)

/-- `fees::multiply`. -/
def multiply (amount : U256) (percent : ℤ) (decimals : ℕ) : Except Failure U256 := do
  let _ ← scaleFactor decimals
  orPanic (U256.fromLeSlice (toSignedBytesLe (exactShare amount.toNat percent decimals)))

/-- A fee in the native token, in the token paid out, as an integer. -/
def exactFeeInToken (feeInWei : ℕ) (tokenPrice : ℤ) (decimals : ℕ) : ℤ :=
  ((feeInWei * tokenPrice * 10 ^ decimals).tdiv (10 ^ 8)).tdiv (10 ^ 18)

/-- `calculate_fee_in_token`: the sign is dropped. -/
def calculateFeeInToken (feeInWei : U256) (tokenPrice : ℤ) (decimals : ℕ) : Except Failure U256 :=
  orPanic (U256.fromLeSlice (toBytesLe (exactFeeInToken feeInWei.toNat tokenPrice decimals).natAbs))

/-- A share is put into 256 bits unchanged exactly when it is not negative. -/
lemma multiply_exact_iff {amount fee : U256} {percent : ℤ} {decimals : ℕ}
    (h : multiply amount percent decimals = .ok fee) :
    (fee.toNat : ℤ) = exactShare amount.toNat percent decimals ↔
      0 ≤ exactShare amount.toNat percent decimals := by
  obtain ⟨-, -, h⟩ := Lib.bind_eq_ok_iff.mp h
  exact U256.toNat_fromLeSlice_signed (Lib.okOr_eq_ok_iff.mp h)

/-- What `calculate_fee_in_token` returns is the magnitude of the fee. -/
lemma toNat_calculateFeeInToken {feeInWei fee : U256} {tokenPrice : ℤ} {decimals : ℕ}
    (h : calculateFeeInToken feeInWei tokenPrice decimals = .ok fee) :
    fee.toNat = (exactFeeInToken feeInWei.toNat tokenPrice decimals).natAbs :=
  U256.toNat_fromLeSlice_toBytesLe (Lib.okOr_eq_ok_iff.mp h)

/-- A share at a percentage that is not negative is not negative. -/
lemma exactShare_nonneg {amount : ℕ} {percent : ℤ} {decimals : ℕ} (h : 0 ≤ percent) :
    0 ≤ exactShare amount percent decimals := by
  apply Int.tdiv_nonneg _ (by positivity)
  exact Int.tdiv_nonneg (by positivity) (by positivity)

/-! ## The gas fee -/

/-- The fee for the gas of the relayer, as an integer: in the native token, or at a price in
another token. -/
def exactGasFee (limit price : ℕ) (tokenPrice : Option ℤ) (decimals : ℕ) : ℤ :=
  match tokenPrice with
  | none => limit * price
  | some tokenPrice => exactFeeInToken (limit * price) tokenPrice decimals

/-- The `gas_fee` of `get_quote`. -/
def gasFee (limit price : U256) (tokenPrice : Option ℤ) (decimals : ℕ) : Except Failure U256 :=
  match tokenPrice with
  | none => .ok (limit * price)
  | some tokenPrice => calculateFeeInToken (limit * price) tokenPrice decimals

lemma natAbs_exactFeeInToken (fee : ℕ) (tokenPrice : ℤ) (decimals : ℕ) :
    (exactFeeInToken fee tokenPrice decimals).natAbs =
      fee * (tokenPrice.natAbs * 10 ^ decimals) / 10 ^ 26 := by
  rw [exactFeeInToken, Int.natAbs_tdiv, Int.natAbs_tdiv, Int.natAbs_mul, Int.natAbs_mul,
    Int.natAbs_natCast, Int.natAbs_pow, mul_assoc]
  show fee * (tokenPrice.natAbs * 10 ^ decimals) / 10 ^ 8 / 10 ^ 18 = _
  rw [Nat.div_div_eq_div_mul, ← pow_add]

/-- A product of gas limit and price that does not fit 256 bits changes the fee, at every
price but zero. -/
theorem natAbs_exactFeeInToken_mod_lt {fee : ℕ} {tokenPrice : ℤ} (decimals : ℕ)
    (hfee : 2 ^ 256 ≤ fee) (hprice : tokenPrice ≠ 0) :
    (exactFeeInToken (fee % 2 ^ 256) tokenPrice decimals).natAbs <
      (exactFeeInToken fee tokenPrice decimals).natAbs := by
  rw [natAbs_exactFeeInToken, natAbs_exactFeeInToken]
  have hm : 1 ≤ tokenPrice.natAbs * 10 ^ decimals :=
    Nat.mul_pos (Int.natAbs_pos.mpr hprice) (by positivity)
  generalize tokenPrice.natAbs * 10 ^ decimals = m at hm ⊢
  have hmod : fee % 2 ^ 256 + 2 ^ 256 ≤ fee := by omega
  have hstep : fee % 2 ^ 256 * m + 10 ^ 26 ≤ fee * m := by
    calc fee % 2 ^ 256 * m + 10 ^ 26 ≤ fee % 2 ^ 256 * m + 2 ^ 256 * m := by
          have : 2 ^ 256 * 1 ≤ 2 ^ 256 * m := Nat.mul_le_mul_left _ hm
          omega
      _ = (fee % 2 ^ 256 + 2 ^ 256) * m := by ring
      _ ≤ fee * m := Nat.mul_le_mul_right m hmod
  calc fee % 2 ^ 256 * m / 10 ^ 26 < (fee % 2 ^ 256 * m + 10 ^ 26) / 10 ^ 26 := by omega
    _ ≤ fee * m / 10 ^ 26 := Nat.div_le_div_right hstep

/-- The gas fee is computed exactly when it is not negative and the product of limit and price
fits 256 bits, or is multiplied by zero. -/
theorem gasFee_exact_iff {limit price fee : U256} {tokenPrice : Option ℤ} {decimals : ℕ}
    (h : gasFee limit price tokenPrice decimals = .ok fee) :
    (fee.toNat : ℤ) = exactGasFee limit.toNat price.toNat tokenPrice decimals ↔
      0 ≤ exactGasFee limit.toNat price.toNat tokenPrice decimals ∧
        (limit.toNat * price.toNat < 2 ^ 256 ∨ tokenPrice = some 0) := by
  cases tokenPrice with
  | none =>
    obtain rfl := Except.ok.inj h
    have hmul := BitVec.toNat_mul limit price
    simp only [exactGasFee]
    norm_cast
    rw [hmul]
    constructor
    · intro heq
      refine ⟨Nat.zero_le _, .inl ?_⟩
      rw [← heq]
      exact Nat.mod_lt _ (by positivity)
    · rintro ⟨-, hlt | hzero⟩
      · exact Nat.mod_eq_of_lt hlt
      · cases hzero
  | some tokenPrice =>
    have hfee := toNat_calculateFeeInToken h
    rw [BitVec.toNat_mul] at hfee
    simp only [exactGasFee, Option.some.injEq]
    by_cases hlt : limit.toNat * price.toNat < 2 ^ 256
    · rw [Nat.mod_eq_of_lt hlt] at hfee
      rw [hfee]
      simp only [hlt, true_or, and_true, Int.natCast_natAbs]
      exact abs_eq_self
    · by_cases hzero : tokenPrice = 0
      · subst hzero
        simp [hfee, exactFeeInToken]
      · have hless := natAbs_exactFeeInToken_mod_lt decimals (not_lt.mp hlt) hzero
        constructor
        · intro heq
          rw [← hfee] at hless
          omega
        · rintro ⟨-, h | h⟩
          · exact absurd h hlt
          · exact absurd h hzero

end GemCore.Across
